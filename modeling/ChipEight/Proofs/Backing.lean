import ChipEight.Proofs.Offsets

/-! Bare cells may become more when images are put into them, but never fewer. So the check of an address is enough
for there to be a cell behind it. -/

namespace ChipEight

open Actions

def Addressed (a : Int) : Prop :=
  0 ≤ a ∧ a < 4096

instance (a : Int) : Decidable (Addressed a) :=
  inferInstanceAs (Decidable (0 ≤ a ∧ a < 4096))

theorem Addressed.exists_lt {a : Int} (ha : Addressed a) : ∃ k : Nat, a = k ∧ k < 4096 := by
  obtain ⟨k, rfl⟩ := Int.eq_ofNat_of_zero_le ha.1
  exact ⟨k, rfl, Int.ofNat_lt.1 ha.2⟩

inductive MemoryCall
  | get (a : Int)
  | set (a v : Int)
  | word (a : Int)
  | font (offset : Int)
  | load (image : Array Byte) (offset : Int)

inductive MemoryReply
  | done
  | byte (b : Byte)
  | word (w : Word)

/-- Why nothing comes of work on bare cells: it is refused, or it is let through and there is no such cell. -/
inductive Lapse
  | refused (f : Fault)
  | missing (a : Int)

abbrev CellsM := EStateM Lapse (Array Byte)

namespace CellsM

def check (a : Int) : CellsM Unit :=
  if Addressed a then pure () else throw (.refused (.memoryAccess a))

def read (a : Int) : CellsM Byte := do
  check a
  match (← get)[a.toNat]? with
  | some b => return b
  | none => throw (.missing a)

def readWord (a : Int) : CellsM Word := do
  let high ← read a
  let low ← read (a + 1)
  return high ++ low

def write (a v : Int) : CellsM Unit := do
  check a
  match fit 8 (.cell v) v with
  | .error f => throw (.refused f)
  | .ok b =>
    if a.toNat < (← get).size then modify (·.setIfInBounds a.toNat b) else throw (.missing a)

def splice (image : Array Byte) (offset : Int) : CellsM Unit :=
  modify fun cells => spliced cells offset (offset + image.size) image

def load (image : Array Byte) (offset : Int) : CellsM Unit :=
  if offset + image.size > 4096 then throw (.refused (.programTooLarge image.size offset))
  else splice image offset

end CellsM

namespace Memory

variable (m : Memory)

theorem write_of_outside {a : Int} (ha : ¬ Addressed a) (v : Int) :
    m.write a v = .error (.memoryAccess a) := by
  rw [write, m.read_of_outside ha, error_bind]

theorem write_of_unfit {k : Nat} (hk : k < 4096) {v : Int} (hv : fit? 8 v = none) :
    m.write k v = .error (.outOfRange (.cell v)) := by
  rw [write, m.read_eq_cell hk, ok_bind, fit, hv, error_bind]

end Memory

namespace MemoryM

def read (a : Int) : MemoryM Byte := inspect (·.read a)

def readWord (a : Int) : MemoryM Word := inspect (·.readWord a)

def write (a v : Int) : MemoryM Unit := revise (·.write a v)

variable (m : Memory) {a : Int}

theorem read_of_lt {k : Nat} (hk : k < 4096) : read k m = .ok (m.cell k) m :=
  inspect_of_ok (m.read_eq_cell hk)

theorem read_of_outside (ha : ¬ Addressed a) : read a m = .error (.memoryAccess a) m :=
  inspect_of_error (m.read_of_outside ha)

theorem readWord_eq (a : Int) :
    readWord a = (do return (← read a) ++ (← read (a + 1))) := by
  funext m
  rw [bind_apply]
  cases hhigh : m.read a with
  | error e =>
    have hword : m.readWord a = .error e := by rw [Memory.readWord, hhigh, error_bind]
    rw [readWord, inspect_of_error hword, read, inspect_of_error hhigh, proceed_error]
  | ok high =>
    rw [read, inspect_of_ok hhigh, proceed_ok, bind_apply]
    cases hlow : m.read (a + 1) with
    | error e =>
      have hword : m.readWord a = .error e := by
        rw [Memory.readWord, hhigh, ok_bind, hlow, error_bind]
      rw [readWord, inspect_of_error hword, read, inspect_of_error hlow, proceed_error]
    | ok low =>
      have hword : m.readWord a = .ok (high ++ low) := by
        rw [Memory.readWord, hhigh, ok_bind, hlow, ok_bind]
        rfl
      rw [readWord, inspect_of_ok hword, read, inspect_of_ok hlow, proceed_ok, pure_apply]

theorem write_of_lt {k : Nat} (hk : k < 4096) (b : Byte) :
    write k b.toNat m = .ok () (m.overwrite k [b]) :=
  revise_of_ok (m.write_toNat hk b)

theorem write_of_outside (ha : ¬ Addressed a) (v : Int) :
    write a v m = .error (.memoryAccess a) m :=
  revise_of_error (m.write_of_outside ha v)

theorem write_of_unfit {k : Nat} (hk : k < 4096) {v : Int} (hv : fit? 8 v = none) :
    write k v m = .error (.outOfRange (.cell v)) m :=
  revise_of_error (m.write_of_unfit hk hv)

end MemoryM

namespace MemoryCall

def action : MemoryCall → MemoryM MemoryReply
  | get a => do return .byte (← MemoryM.read a)
  | set a v => do
    MemoryM.write a v
    return .done
  | word a => do return .word (← MemoryM.readWord a)
  | font offset => do
    modify (·.loadFont offset)
    return .done
  | load image offset => do
    MemoryM.load image offset
    return .done

def bareAction : MemoryCall → CellsM MemoryReply
  | get a => do return .byte (← CellsM.read a)
  | set a v => do
    CellsM.write a v
    return .done
  | word a => do return .word (← CellsM.readWord a)
  | font offset => do
    CellsM.splice Font.bytes.toArray offset
    return .done
  | load image offset => do
    CellsM.load image offset
    return .done

end MemoryCall

def Memory.after (m : Memory) (calls : List MemoryCall) : Memory :=
  calls.foldl (fun m c => leftBy c.action m) m

def cellsAfter (cells : Array Byte) (calls : List MemoryCall) : Array Byte :=
  calls.foldl (fun cells c => leftBy c.bareAction cells) cells

def bared {α : Type} : EStateM.Result Fault Memory α → EStateM.Result Lapse (Array Byte) α
  | .ok a m => .ok a m.cells
  | .error f m => .error (.refused f) m.cells

def Backs {α : Type} (x : CellsM α) (y : MemoryM α) : Prop :=
  ∀ m : Memory, x m.cells = bared (y m)

namespace Backs

variable {α β : Type}

theorem pure (a : α) : Backs (Pure.pure a) (Pure.pure a) := fun _ => rfl

theorem bind {x : CellsM α} {y : MemoryM α} {f : α → CellsM β} {g : α → MemoryM β}
    (hx : Backs x y) (hf : ∀ a, Backs (f a) (g a)) : Backs (x >>= f) (y >>= g) := by
  intro m
  rw [bind_apply, bind_apply, hx m]
  cases y m with
  | ok a m' => exact hf a m'
  | error e m' => rfl

theorem leftBy_eq {x : CellsM α} {y : MemoryM α} (h : Backs x y) (m : Memory) :
    leftBy x m.cells = (leftBy y m).cells := by
  unfold leftBy
  rw [h m]
  cases y m <;> rfl

end Backs

section Cells

variable (m : Memory) {a : Int}

theorem check_of_addressed (ha : Addressed a) (cells : Array Byte) :
    CellsM.check a cells = .ok () cells := by
  rw [CellsM.check, if_pos ha]
  rfl

theorem check_of_not_addressed (ha : ¬ Addressed a) (cells : Array Byte) :
    CellsM.check a cells = .error (.refused (.memoryAccess a)) cells := by
  rw [CellsM.check, if_neg ha]
  rfl

theorem getElem?_of_addressed {k : Nat} (hk : k < 4096) : m.cells[k]? = some (m.cell k) := by
  have hsize : k < m.cells.size := Nat.lt_of_lt_of_le hk m.size_ge
  rw [Memory.cell, Array.getD_eq_getD_getElem?, Array.getElem?_eq_getElem hsize, Option.getD_some]

theorem overwrite_cells {k : Nat} (hk : k < 4096) (b : Byte) :
    (m.overwrite k [b]).cells = m.cells.setIfInBounds k b := by
  have hsize : k < m.cells.size := Nat.lt_of_lt_of_le hk m.size_ge
  have haddress : (0 : Int) ≤ k ∧ (k : Int) < 4096 := by omega
  have hput := m.put_eq_overwrite hk b
  rw [Memory.put, dif_pos haddress] at hput
  have hcells := congrArg Memory.cells (Except.ok.inj hput)
  rw [← hcells, Array.setIfInBounds, dif_pos hsize]
  rfl

theorem read_backs (a : Int) : Backs (CellsM.read a) (MemoryM.read a) := by
  intro m
  rw [CellsM.read, bind_apply]
  by_cases ha : Addressed a
  · obtain ⟨k, rfl, hk⟩ := ha.exists_lt
    rw [check_of_addressed ha, proceed_ok, bind_apply, get_apply, proceed_ok, Int.toNat_natCast,
      getElem?_of_addressed m hk, MemoryM.read_of_lt m hk]
    rfl
  · rw [check_of_not_addressed ha, proceed_error, MemoryM.read_of_outside m ha]
    rfl

theorem readWord_backs (a : Int) : Backs (CellsM.readWord a) (MemoryM.readWord a) := by
  rw [MemoryM.readWord_eq]
  exact .bind (read_backs a) fun _ => .bind (read_backs (a + 1)) fun _ => .pure _

theorem write_backs (a v : Int) : Backs (CellsM.write a v) (MemoryM.write a v) := by
  intro m
  rw [CellsM.write, bind_apply]
  by_cases ha : Addressed a
  · obtain ⟨k, rfl, hk⟩ := ha.exists_lt
    rw [check_of_addressed ha, proceed_ok]
    cases hv : fit? 8 v with
    | none =>
      rw [MemoryM.write_of_unfit m hk hv, fit, hv]
      rfl
    | some b =>
      obtain rfl := fit?_eq_some_iff.1 hv
      have hsize : k < m.cells.size := Nat.lt_of_lt_of_le hk m.size_ge
      rw [MemoryM.write_of_lt m hk, fit, hv]
      dsimp only
      rw [bind_apply, get_apply, proceed_ok, Int.toNat_natCast, if_pos hsize, modify_apply, bared,
        overwrite_cells m hk]
  · rw [check_of_not_addressed ha, proceed_error, MemoryM.write_of_outside m ha]
    rfl

theorem load_backs (image : Array Byte) (offset : Int) :
    Backs (CellsM.load image offset) (MemoryM.load image offset) := by
  intro m
  rw [CellsM.load]
  by_cases hlarge : offset + image.size > 4096
  · rw [if_pos hlarge, MemoryM.load, MemoryM.revise_of_error (m.load_of_large hlarge)]
    rfl
  · rw [if_neg hlarge, Memory.memoryM_load_of_fits (Int.not_lt.1 hlarge)]
    rfl

theorem MemoryCall.backs (c : MemoryCall) : Backs c.bareAction c.action := by
  cases c with
  | get a => exact .bind (read_backs a) fun b => .pure _
  | set a v => exact .bind (write_backs a v) fun _ => .pure _
  | word a => exact .bind (readWord_backs a) fun w => .pure _
  | font offset => exact .bind (fun _ => rfl) fun _ => .pure _
  | load image offset => exact .bind (load_backs image offset) fun _ => .pure _

end Cells

namespace MemoryM

variable (m : Memory) {a : Int}

theorem readWord_of_outside (ha : ¬ Addressed a) :
    readWord a m = .error (.memoryAccess a) m := by
  rw [readWord_eq, bind_apply, read_of_outside m ha, proceed_error]

theorem readWord_of_lt {k : Nat} (hk : k < 4096) :
    readWord k m = proceed (read (k + 1) m) fun low => pure (m.cell k ++ low) := by
  rw [readWord_eq, bind_apply, read_of_lt m hk, proceed_ok, bind_apply]

end MemoryM

/-- The accesses to a memory are refused only for their address or their value, and leave it as it was then. What is
written is read back, and nothing else is changed by it. -/
structure Memory.Guarded (m : Memory) : Prop where
  read_fails_iff : ∀ a f m', MemoryM.read a m = .error f m' ↔
    ¬ Addressed a ∧ f = .memoryAccess a ∧ m' = m
  readWord_fails_iff : ∀ a f m', MemoryM.readWord a m = .error f m' ↔
    (¬ Addressed a ∧ f = .memoryAccess a ∨
      Addressed a ∧ ¬ Addressed (a + 1) ∧ f = .memoryAccess (a + 1)) ∧ m' = m
  write_fails_iff : ∀ a v f m', MemoryM.write a v m = .error f m' ↔
    (¬ Addressed a ∧ f = .memoryAccess a ∨
      Addressed a ∧ ¬ (0 ≤ v ∧ v ≤ 255) ∧ f = .outOfRange (.cell v)) ∧ m' = m
  written : ∀ a v m', MemoryM.write a v m = .ok () m' →
    (∃ b : Byte, (b.toNat : Int) = v ∧ MemoryM.read a m' = .ok b m') ∧
      ∀ a', a' ≠ a → m'.read a' = m.read a'

theorem fit?_byte_eq_none_iff {v : Int} : fit? 8 v = none ↔ ¬ (0 ≤ v ∧ v ≤ 255) := by
  rw [fit?_eq_none_iff]
  omega

theorem write_cases (m : Memory) (a v : Int) :
    (¬ Addressed a ∧ MemoryM.write a v m = .error (.memoryAccess a) m) ∨
      (Addressed a ∧ ¬ (0 ≤ v ∧ v ≤ 255) ∧
        MemoryM.write a v m = .error (.outOfRange (.cell v)) m) ∨
      ∃ (k : Nat) (b : Byte), a = k ∧ k < 4096 ∧ v = b.toNat ∧
        MemoryM.write a v m = .ok () (m.overwrite k [b]) := by
  by_cases ha : Addressed a
  · obtain ⟨k, rfl, hk⟩ := ha.exists_lt
    cases hv : fit? 8 v with
    | none => exact .inr (.inl ⟨ha, fit?_byte_eq_none_iff.1 hv, MemoryM.write_of_unfit m hk hv⟩)
    | some b =>
      obtain rfl := fit?_eq_some_iff.1 hv
      exact .inr (.inr ⟨k, b, rfl, hk, rfl, MemoryM.write_of_lt m hk b⟩)
  · exact .inl ⟨ha, MemoryM.write_of_outside m ha v⟩

theorem cell_overwrite_single (m : Memory) {k i : Nat} (hk : k < 4096) (b : Byte) :
    (m.overwrite k [b]).cell i = if i = k then b else m.cell i := by
  rw [m.cell_overwrite]
  split
  · next hi =>
    obtain rfl | hlt := Nat.eq_or_lt_of_le hi.1
    · rw [if_pos rfl, Nat.sub_self]
      rfl
    · obtain ⟨j, rfl⟩ : ∃ j, i = k + 1 + j := Nat.exists_eq_add_of_le hlt
      have hj : k + 1 + j - k = j + 1 := by omega
      rw [if_neg (Nat.ne_of_gt hlt), hj]
      rfl
  · next hi =>
    rw [if_neg]
    rintro rfl
    exact hi ⟨Nat.le_refl i, hk⟩

theorem Memory.guarded (m : Memory) : m.Guarded where
  read_fails_iff a f m' := by
    by_cases ha : Addressed a
    · obtain ⟨k, rfl, hk⟩ := ha.exists_lt
      rw [MemoryM.read_of_lt m hk]
      simp [ha]
    · rw [MemoryM.read_of_outside m ha]
      simp [ha, eq_comm]
  readWord_fails_iff a f m' := by
    by_cases ha : Addressed a
    · obtain ⟨k, rfl, hk⟩ := ha.exists_lt
      rw [MemoryM.readWord_of_lt m hk]
      by_cases hnext : Addressed (k + 1)
      · obtain ⟨next, hnext', hlt⟩ := hnext.exists_lt
        rw [hnext', MemoryM.read_of_lt m hlt, proceed_ok, pure_apply, ← hnext']
        simp [ha, hnext]
      · rw [MemoryM.read_of_outside m hnext, proceed_error]
        simp [ha, hnext, eq_comm]
    · rw [MemoryM.readWord_of_outside m ha]
      simp [ha, eq_comm]
  write_fails_iff a v f m' := by
    obtain ⟨ha, hfails⟩ | ⟨ha, hv, hfails⟩ | ⟨k, b, rfl, hk, rfl, hwrites⟩ := write_cases m a v
    · rw [hfails]
      simp [ha, eq_comm]
    · rw [hfails]
      simp [ha, hv, eq_comm]
    · have hb : (b.toNat : Int) ≤ 255 := by omega
      have ha : Addressed k := by
        unfold Addressed
        omega
      rw [hwrites]
      simp [ha, hb]
  written a v m' hwritten := by
    obtain ⟨-, hfails⟩ | ⟨-, -, hfails⟩ | ⟨k, b, rfl, hk, rfl, hwrites⟩ := write_cases m a v
    · rw [hfails] at hwritten
      cases hwritten
    · rw [hfails] at hwritten
      cases hwritten
    · rw [hwrites] at hwritten
      cases hwritten
      refine ⟨⟨b, rfl, ?_⟩, fun a' ha' => read_congr fun i hi _ => ?_⟩
      · rw [MemoryM.read_of_lt _ hk, cell_overwrite_single m hk, if_pos rfl]
      · rw [cell_overwrite_single m hk, if_neg fun hik => ha' (hi.trans (congrArg _ hik))]

theorem Memory.after_cells (m : Memory) (calls : List MemoryCall) :
    (m.after calls).cells = cellsAfter m.cells calls := by
  induction calls generalizing m with
  | nil => rfl
  | cons c calls ih =>
    rw [after, cellsAfter, List.foldl_cons, List.foldl_cons, c.backs.leftBy_eq m]
    exact ih (leftBy c.action m)

theorem MemoryCall.keeps_size (c : MemoryCall) (n : Nat) :
    Keeps (fun cells : Array Byte => n ≤ cells.size) c.bareAction := by
  have hcheck : ∀ a, Keeps (fun cells : Array Byte => n ≤ cells.size) (CellsM.check a) := by
    intro a
    unfold CellsM.check
    split <;> exact fun _ hn => hn
  have hread : ∀ a, Keeps (fun cells : Array Byte => n ≤ cells.size) (CellsM.read a) := by
    intro a
    refine .bind (hcheck a) fun _ => .bind (fun _ hn => hn) fun cells => ?_
    split <;> exact fun _ hn => hn
  have hsplice : ∀ image offset,
      Keeps (fun cells : Array Byte => n ≤ cells.size) (CellsM.splice image offset) :=
    fun image offset => .modify fun cells hn =>
      Nat.le_trans hn (size_le_size_spliced cells offset image)
  cases c with
  | get a => exact .bind (hread a) fun _ => .pure _
  | word a =>
    exact .bind (.bind (hread a) fun _ => .bind (hread (a + 1)) fun _ => .pure _) fun _ => .pure _
  | set a v =>
    refine .bind (.bind (hcheck a) fun _ => ?_) fun _ => .pure _
    split
    · exact fun _ hn => hn
    · refine .bind (fun _ hn => hn) fun cells => ?_
      split
      · exact .modify fun cells hn => by rwa [Array.size_setIfInBounds]
      · exact fun _ hn => hn
  | font offset => exact .bind (hsplice _ offset) fun _ => .pure _
  | load image offset =>
    refine .bind ?_ fun _ => .pure _
    unfold CellsM.load
    split
    · exact fun _ hn => hn
    · exact hsplice image offset

theorem size_le_cellsAfter (cells : Array Byte) (calls : List MemoryCall) :
    cells.size ≤ (cellsAfter cells calls).size := by
  induction calls generalizing cells with
  | nil => exact Nat.le_refl _
  | cons c calls ih => exact Nat.le_trans (c.keeps_size _ cells (Nat.le_refl _)) (ih _)

/-- However a memory has been used, its bare cells have only become more, and so none is ever missing behind the
checks. -/
theorem accesses_backed (calls : List MemoryCall) :
    let cells := cellsAfter (Array.replicate 4096 0) calls
    let m := Memory.blank.after calls
    4096 ≤ cells.size ∧ m.cells = cells ∧ m.Guarded ∧
      ∀ c : MemoryCall, cells.size ≤ (leftBy c.bareAction cells).size ∧
        c.bareAction cells = bared (c.action m) := by
  have hcells := Memory.blank.after_cells calls
  have hsize := size_le_cellsAfter (Array.replicate 4096 0) calls
  rw [Array.size_replicate] at hsize
  refine ⟨hsize, hcells, Memory.guarded _, fun c => ⟨c.keeps_size _ _ (Nat.le_refl _), ?_⟩⟩
  rw [← c.backs, hcells]
  rfl

end ChipEight
