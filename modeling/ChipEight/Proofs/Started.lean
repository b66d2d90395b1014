import ChipEight.Proofs.Calls
import ChipEight.Proofs.Failure
import ChipEight.Proofs.Images

/-! Machines on which a program has just been started. -/

namespace ChipEight

open Actions

def Host.quiet : Host where
  tracing := false
  random _ := 0
  renderer := none
  beeper := none
  files _ := .error .missing

def Session.started (source : KeySource) (program : List Byte) : Session :=
  (fresh source).after
    [(.quiet, .load (program.map fun b => (b.toNat : Int))), (.quiet, .boot)]

theorem imageOf_bytes (bs : List Byte) :
    imageOf (bs.map fun b => (b.toNat : Int)) = .ok bs.toArray := by
  have hall : (bs.map fun b => (b.toNat : Int)).mapM (fit 8 .image) = .ok bs := by
    induction bs with
    | nil => rfl
    | cons b bs ih =>
      rw [List.map_cons, List.mapM_cons, fit_toNat, ok_bind, ih]
      rfl
  rw [imageOf, hall]
  rfl

theorem revise_of_ok {f : Machine → Except Fault Machine} {s : Session} {m : Machine}
    (hm : f s.machine = .ok m) : revise f s = .ok () { s with machine := m } := by
  unfold revise
  rw [hm]

theorem revise_of_error {f : Machine → Except Fault Machine} {s : Session} {fault : Fault}
    (hfault : f s.machine = .error fault) : revise f s = .error (.fault fault) s := by
  unfold revise
  rw [hfault]

namespace Session

variable (source : KeySource) {program : List Byte}

theorem started_eq (hfits : program.length ≤ 3584) :
    started source program = { fresh source with machine :=
      { Machine.fresh with
        counter := 512
        memory := (Memory.blank.overlay program.toArray (512 : Nat)).overlay
          Font.bytes.toArray (0 : Nat) } } := by
  have hload : (fresh source).machine.load program.toArray =
      .ok { Machine.fresh with memory := Memory.blank.overlay program.toArray (512 : Nat) } := by
    rw [Machine.load_eq, if_neg (by rw [List.size_toArray]; omega)]
    rfl
  have haction : Call.action .quiet (.load (program.map fun b => (b.toNat : Int)))
      (fresh source) = loadBytes program.toArray (fresh source) := by
    show proceed (SessionM.ofExcept (imageOf _) _) loadBytes = _
    rw [imageOf_bytes, SessionM.ofExcept_ok, proceed_ok]
  have hloaded := leftBy_of_ok (haction.trans (revise_of_ok hload))
  unfold started after
  rw [hloaded]
  rfl

theorem started_reachable (source : KeySource) (program : List Byte) :
    (started source program).Reachable :=
  ⟨source, _, rfl⟩

theorem started_memory (hfits : program.length ≤ 3584) (a : Nat) :
    (started source program).machine.memory.cell a =
      if a < 80 then Font.bytes.toArray.getD a 0
      else if 512 ≤ a ∧ a < 512 + program.length then program.toArray.getD (a - 512) 0
      else Memory.blank.cell a := by
  have hblank : Memory.blank.cells.size = 4096 := Array.size_replicate
  have hfont : Font.bytes.toArray.size = 80 := rfl
  have hsize : program.toArray.size = program.length := List.size_toArray
  have hprogram : 512 + program.toArray.size ≤ Memory.blank.cells.size := by
    rw [hblank, hsize]
    omega
  have hroom : 0 + Font.bytes.toArray.size ≤
      (Memory.blank.overlay program.toArray (512 : Nat)).cells.size := by
    rw [Memory.size_overlay _ hprogram, hblank, hfont]
    decide
  have hbelow : 0 ≤ a ∧ a < 0 + 80 ↔ a < 80 := by omega
  rw [started_eq source hfits, Memory.cell_overlay _ hroom, Memory.cell_overlay _ hprogram, hsize,
    hfont, Nat.sub_zero]
  simp only [hbelow]

theorem started_cell (hfits : program.length ≤ 3584) {i : Nat} (hi : i < program.length) :
    (started source program).machine.memory.cell (512 + i) = program[i] := by
  rw [started_memory source hfits, if_neg (by omega), if_pos (by omega), Nat.add_sub_cancel_left,
    Array.getD_eq_getD_getElem?, List.getElem?_toArray, List.getElem?_eq_getElem hi]
  rfl

theorem started_counter (hfits : program.length ≤ 3584) :
    (started source program).machine.counter = 512 := by
  rw [started_eq source hfits]

theorem started_word (hfits : program.length ≤ 3584) (hlength : 1 < program.length) :
    (started source program).machine.word = program[0] ++ program[1] := by
  rw [Machine.word, started_counter source hfits]
  exact congr (congrArg _ (started_cell source hfits (Nat.zero_lt_of_lt hlength)))
    (started_cell source hfits hlength)

theorem started_next (hfits : program.length ≤ 3584) (hlength : 1 < program.length) {op : Opcode}
    (hd : decode (program[0] ++ program[1]) = .ok op) :
    (started source program).machine.Next op := by
  refine Machine.next_iff.2 ⟨?_, ?_⟩
  · rw [started_counter source hfits]
    decide
  · rw [started_word source hfits hlength, hd]

end Session

end ChipEight
