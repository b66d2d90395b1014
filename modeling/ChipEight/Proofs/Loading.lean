import ChipEight.Proofs.Commuting
import ChipEight.Proofs.Images
import ChipEight.Proofs.Started

/-! Programs and the font have places of their own in the memory, so that a program may be loaded before
the machine is booted as well as after it. -/

namespace ChipEight

open Actions

namespace Memory

variable (m : Memory)

theorem overlay_overlay {first second : Array Byte} {a b : Nat} (hapart : a + first.size ≤ b)
    (hroom : b + second.size ≤ m.cells.size) :
    (m.overlay first a).overlay second b = (m.overlay second b).overlay first a := by
  have hfirst : a + first.size ≤ m.cells.size := by omega
  have hsize₁ := m.size_overlay hfirst
  have hsize₂ := m.size_overlay hroom
  have hroom' : b + second.size ≤ (m.overlay first a).cells.size := by rwa [hsize₁]
  have hfirst' : a + first.size ≤ (m.overlay second b).cells.size := by rwa [hsize₂]
  apply ext_cell
  · rw [size_overlay _ hroom', size_overlay _ hfirst', hsize₁, hsize₂]
  · intro i
    rw [cell_overlay _ hroom', cell_overlay _ hfirst', cell_overlay _ hfirst, cell_overlay _ hroom]
    by_cases hi : b ≤ i ∧ i < b + second.size
    · have hout : ¬ (a ≤ i ∧ i < a + first.size) := by omega
      simp only [if_pos hi, if_neg hout]
    · simp only [if_neg hi]

end Memory

namespace Machine

def Reads (m : Machine) (program : Array Byte) : Prop :=
  ∀ j (hj : 2 * j + 1 < program.size),
    m.memory.readWord (512 + 2 * j : Nat) = .ok (program[2 * j] ++ program[2 * j + 1])

structure Loads (m : Machine) (program : Array Byte) (m' : Machine) : Prop where
  program_eq : ∀ i (hi : i < program.size), m'.memory.cell (512 + i) = program[i]
  cell_eq : ∀ a, ¬ (512 ≤ a ∧ a < 512 + program.size) → m'.memory.cell a = m.memory.cell a
  size_eq : m'.memory.cells.size = m.memory.cells.size
  rest_eq : m' = { m with memory := m'.memory }
  reads : m'.Reads program

/-- The second machine is the first one, booted, and with a program in its place. -/
structure Prepared (m : Machine) (program : Array Byte) (m' : Machine) : Prop where
  counter_eq : m'.counter = 0x200
  font_eq : ∀ i < 80, m'.memory.cell i = Font.bytes.getD i 0
  program_eq : ∀ i (hi : i < program.size), m'.memory.cell (512 + i) = program[i]
  cell_eq : ∀ a, 80 ≤ a → ¬ (512 ≤ a ∧ a < 512 + program.size) →
    m'.memory.cell a = m.memory.cell a
  size_eq : m'.memory.cells.size = m.memory.cells.size
  rest_eq : m' = { m with counter := m'.counter, memory := m'.memory }
  reads : m'.Reads program

variable {m m' : Machine} {program : Array Byte}

theorem reads_of_cells (hfits : program.size ≤ 3584)
    (hcells : ∀ i (hi : i < program.size), m.memory.cell (512 + i) = program[i]) :
    m.Reads program := by
  intro j hj
  have hhigh := hcells (2 * j) (by omega)
  have hlow := hcells (2 * j + 1) hj
  rw [m.memory.readWord_eq (by omega), hhigh, ← hlow]
  rfl

theorem room_of_fits (hfits : program.size ≤ 3584) (m : Memory) :
    512 + program.size ≤ m.cells.size := by
  have := m.size_ge
  omega

theorem overlay_loads (m : Machine) (hfits : program.size ≤ 3584) :
    m.Loads program { m with memory := m.memory.overlay program (512 : Nat) } := by
  have hroom := room_of_fits hfits m.memory
  have hcells : ∀ i (hi : i < program.size),
      (m.memory.overlay program (512 : Nat)).cell (512 + i) = program[i] := by
    intro i hi
    rw [m.memory.cell_overlay hroom, if_pos (by omega), Nat.add_sub_cancel_left]
    simp [hi]
  refine ⟨hcells, fun a ha => ?_, m.memory.size_overlay hroom, rfl, reads_of_cells hfits hcells⟩
  exact (m.memory.cell_overlay hroom a).trans (if_neg ha)

theorem Loads.empty (m : Machine) : m.Loads #[] m where
  program_eq _ hi := absurd hi (Nat.not_lt_zero _)
  cell_eq _ _ := rfl
  size_eq := rfl
  rest_eq := rfl
  reads _ hj := absurd hj (Nat.not_lt_zero _)

theorem room_for_font (m : Memory) : 0 + Font.bytes.toArray.size ≤ m.cells.size :=
  Nat.le_trans (by decide) m.size_ge

theorem boot_size (m : Machine) : m.boot.memory.cells.size = m.memory.cells.size :=
  m.memory.size_overlay (room_for_font m.memory)

theorem boot_cell (m : Machine) (a : Nat) :
    m.boot.memory.cell a = if a < 80 then Font.bytes.getD a 0 else m.memory.cell a := by
  have hin : 0 ≤ a ∧ a < 0 + Font.bytes.toArray.size ↔ a < 80 := by
    show 0 ≤ a ∧ a < 0 + 80 ↔ a < 80
    omega
  refine (m.memory.cell_overlay (room_for_font m.memory) a).trans ?_
  simp only [hin, Nat.sub_zero, Array.getD_eq_getD_getElem?, List.getElem?_toArray,
    List.getD_eq_getElem?_getD]

theorem Loads.prepared (hloads : m.Loads program m') (hfits : program.size ≤ 3584) :
    m.Prepared program m'.boot := by
  have hcells : ∀ i (hi : i < program.size), m'.boot.memory.cell (512 + i) = program[i] := by
    intro i hi
    rw [boot_cell, if_neg (by omega), hloads.program_eq i hi]
  refine ⟨rfl, fun i hi => ?_, hcells, fun a ha hout => ?_, m'.boot_size.trans hloads.size_eq, ?_,
    reads_of_cells hfits hcells⟩
  · rw [boot_cell, if_pos hi]
  · rw [boot_cell, if_neg (Nat.not_lt_of_le ha), hloads.cell_eq a hout]
  · rw [hloads.rest_eq]
    rfl

theorem boot_load (m : Machine) (program : Array Byte) :
    m.boot.load program = (m.load program).map Machine.boot := by
  rw [load_eq, load_eq]
  split
  · rfl
  · next hsize =>
    have hroom := room_of_fits (Nat.le_of_not_lt hsize) m.memory
    have hmemory : (m.memory.overlay Font.bytes.toArray (0 : Nat)).overlay program (512 : Nat) =
        (m.memory.overlay program (512 : Nat)).overlay Font.bytes.toArray (0 : Nat) :=
      m.memory.overlay_overlay (by decide) hroom
    exact congrArg (fun memory => Except.ok { m with counter := 512, memory := memory }) hmemory

end Machine

inductive BytesLoaded (program : Array Byte) (s : Session) : EStateM.Result Halt Session Unit → Prop
  | loaded {m : Machine} (hfits : program.size ≤ 3584) (hloads : s.machine.Loads program m) :
      BytesLoaded program s (.ok () { s with machine := m })
  | tooLarge (hsize : 3584 < program.size) :
      BytesLoaded program s (.error (.fault (.programTooLarge program.size 512)) s)

inductive FileLoaded (h : Host) (path : String) (s : Session) :
    EStateM.Result Halt Session Bool → Prop
  | loaded {program : Array Byte} {m : Machine} (hread : h.files path = .ok program)
      (hfits : program.size ≤ 3584) (hloads : s.machine.Loads program m) :
      FileLoaded h path s (.ok true ({ s with machine := m }.trace h (loaded path)))
  | tooLarge {program : Array Byte} (hread : h.files path = .ok program)
      (hsize : 3584 < program.size) :
      FileLoaded h path s (.error (.fault (.programTooLarge program.size 512)) s)
  | unreadable {e : PathError} (hread : h.files path = .error e) :
      FileLoaded h path s (.ok false (s.print (.notice (unreadable path e))))

/-- To load a program and then to boot the machine is to boot it and then to load the program, whatever
loading comes to. -/
structure LoadsApart {α : Type} (load : SessionM α) (program : Array Byte) (s : Session) : Prop where
  either_order : (boot >>= fun _ => load) s = leaving (leftBy boot) (load s)
  prepared : s.machine.Prepared program (leftBy boot (leftBy load s)).machine

def fitting (program : Array Byte) : Array Byte :=
  if program.size ≤ 3584 then program else #[]

def Host.fitting (h : Host) (path : String) : Array Byte :=
  match h.files path with
  | .ok program => ChipEight.fitting program
  | .error _ => #[]

structure LoadsBytes (program : Array Byte) (s : Session) : Prop where
  outcome : BytesLoaded program s (loadBytes program s)
  loaded_iff : (∃ t, loadBytes program s = .ok () t) ↔ program.size ≤ 3584
  apart : LoadsApart (loadBytes program) (fitting program) s

structure LoadsFile (h : Host) (path : String) (s : Session) : Prop where
  outcome : FileLoaded h path s (loadProgram h path s)
  loaded_iff : (∃ t, loadProgram h path s = .ok true t) ↔
    ∃ program, h.files path = .ok program ∧ program.size ≤ 3584
  tooLarge_iff : (∃ e t, loadProgram h path s = .error e t) ↔
    ∃ program, h.files path = .ok program ∧ 3584 < program.size
  unreadable_iff : (∃ t, loadProgram h path s = .ok false t) ↔ ∃ e, h.files path = .error e
  apart : LoadsApart (loadProgram h path) (h.fitting path) s

section Outcomes

variable (h : Host) {path : String} (s : Session) (program : Array Byte)

theorem loadBytes_outcome : BytesLoaded program s (loadBytes program s) := by
  have hload := s.machine.load_eq program
  by_cases hsize : 3584 < program.size
  · rw [if_pos hsize] at hload
    rw [loadBytes, revise_of_error hload]
    exact .tooLarge hsize
  · rw [if_neg hsize] at hload
    rw [loadBytes, revise_of_ok hload]
    exact .loaded (Nat.le_of_not_lt hsize) (s.machine.overlay_loads (Nat.le_of_not_lt hsize))

theorem loadProgram_of_readable {program : Array Byte} (hpath : path.contains '\x00' = false)
    (hread : h.files path = .ok program) :
    loadProgram h path s =
      proceed (loadBytes program s) fun _ s => .ok true (s.trace h (loaded path)) := by
  unfold loadProgram
  rw [hpath, hread]
  rfl

theorem loadProgram_of_unreadable {e : PathError} (hpath : path.contains '\x00' = false)
    (hread : h.files path = .error e) :
    loadProgram h path s = .ok false (s.print (.notice (unreadable path e))) := by
  unfold loadProgram
  rw [hpath, hread]
  rfl

theorem loadProgram_outcome (hpath : path.contains '\x00' = false) :
    FileLoaded h path s (loadProgram h path s) := by
  cases hread : h.files path with
  | error e =>
    rw [loadProgram_of_unreadable h s hpath hread]
    exact .unreadable hread
  | ok program =>
    have hbytes := loadBytes_outcome s program
    rw [loadProgram_of_readable h s hpath hread]
    generalize loadBytes program s = result at hbytes
    cases hbytes with
    | loaded hfits hloads => exact .loaded hread hfits hloads
    | tooLarge hsize => exact .tooLarge hread hsize

theorem revise_commutes {f : Machine → Except Fault Machine} {g : Machine → Machine}
    (hf : ∀ m, f (g m) = (f m).map g) :
    Commutes (Session.onMachine · g) (revise f) (revise f) := by
  intro s
  unfold revise
  rw [Session.onMachine_machine, hf]
  cases f s.machine <;> rfl

theorem loadBytes_commutes :
    Commutes (Session.onMachine · Machine.boot) (loadBytes program) (loadBytes program) :=
  revise_commutes fun m => m.boot_load program

theorem trace_commutes (text : String) :
    Commutes (Session.onMachine · Machine.boot) (modify (·.trace h text) : SessionM Unit)
      (modify (·.trace h text)) := by
  refine .modify fun s => ?_
  unfold Session.trace
  split <;> rfl

theorem loadProgram_commutes (path : String) :
    Commutes (Session.onMachine · Machine.boot) (loadProgram h path) (loadProgram h path) := by
  unfold loadProgram
  dsimp only
  split
  · exact .throw _
  · cases h.files path with
    | error e => exact .bind (.modify fun _ => rfl) fun _ => .pure false
    | ok program =>
      exact .bind (loadBytes_commutes program) fun _ =>
        .bind (trace_commutes h (loaded path)) fun _ => .pure true

end Outcomes

section Results

variable {h : Host} {path : String} {s : Session} {program : Array Byte}

theorem fitting_size_le : (fitting program).size ≤ 3584 := by
  unfold fitting
  split
  · assumption
  · exact Nat.zero_le _

theorem Host.fitting_size_le : (h.fitting path).size ≤ 3584 := by
  unfold Host.fitting
  split
  · exact ChipEight.fitting_size_le
  · exact Nat.zero_le _

theorem BytesLoaded.loaded_iff {result : EStateM.Result Halt Session Unit}
    (hresult : BytesLoaded program s result) :
    (∃ t, result = .ok () t) ↔ program.size ≤ 3584 := by
  cases hresult with
  | loaded hfits => simp [hfits]
  | tooLarge hsize => simp [hsize]

section File

variable {result : EStateM.Result Halt Session Bool} (hresult : FileLoaded h path s result)
include hresult

theorem FileLoaded.loaded_iff :
    (∃ t, result = .ok true t) ↔
      ∃ program, h.files path = .ok program ∧ program.size ≤ 3584 := by
  cases hresult with
  | loaded hread hfits => simp [hread, hfits]
  | tooLarge hread hsize => simp [hread, hsize]
  | unreadable hread => simp [hread]

theorem FileLoaded.tooLarge_iff :
    (∃ e t, result = .error e t) ↔
      ∃ program, h.files path = .ok program ∧ 3584 < program.size := by
  cases hresult with
  | loaded hread hfits => simp [hread, hfits]
  | tooLarge hread hsize => simp [hread, hsize]
  | unreadable hread => simp [hread]

theorem FileLoaded.unreadable_iff :
    (∃ t, result = .ok false t) ↔ ∃ e, h.files path = .error e := by
  cases hresult with
  | loaded hread => simp [hread]
  | tooLarge hread => simp [hread]
  | unreadable hread => simp [hread]

end File

theorem loadBytes_loads (s : Session) (program : Array Byte) :
    s.machine.Loads (fitting program) (leftBy (loadBytes program) s).machine := by
  have hbytes := loadBytes_outcome s program
  unfold leftBy fitting
  generalize loadBytes program s = result at hbytes
  cases hbytes with
  | loaded hfits hloads =>
    rw [if_pos hfits]
    exact hloads
  | tooLarge hsize =>
    rw [if_neg (Nat.not_le_of_lt hsize)]
    exact .empty s.machine

theorem loadProgram_loads (s : Session) (hpath : path.contains '\x00' = false) :
    s.machine.Loads (h.fitting path) (leftBy (loadProgram h path) s).machine := by
  have hfile := loadProgram_outcome h s hpath
  unfold leftBy Host.fitting
  generalize loadProgram h path s = result at hfile
  cases hfile with
  | loaded hread hfits hloads =>
    rw [hread]
    dsimp only
    rw [Session.trace_machine, fitting, if_pos hfits]
    exact hloads
  | tooLarge hread hsize =>
    rw [hread]
    dsimp only
    rw [fitting, if_neg (Nat.not_le_of_lt hsize)]
    exact .empty s.machine
  | unreadable hread =>
    rw [hread]
    exact .empty s.machine

theorem LoadsApart.of_commutes {α : Type} {load : SessionM α}
    (hcommutes : Commutes (Session.onMachine · Machine.boot) load load) (hfits : program.size ≤ 3584)
    (hloads : s.machine.Loads program (leftBy load s).machine) : LoadsApart load program s where
  either_order := hcommutes s
  prepared := hloads.prepared hfits

end Results

/-- Bytes and files are loaded whole or not at all, and before booting as well as after it. -/
theorem loading_apart_from_boot (h : Host) (s : Session) {path : String}
    (hpath : path.contains '\x00' = false) :
    LoadsFile h path s ∧ ∀ program, LoadsBytes program s := by
  have hfile := loadProgram_outcome h s hpath
  refine ⟨⟨hfile, hfile.loaded_iff, hfile.tooLarge_iff, hfile.unreadable_iff,
    .of_commutes (loadProgram_commutes h path) Host.fitting_size_le (loadProgram_loads s hpath)⟩,
    fun program => ?_⟩
  have hbytes := loadBytes_outcome s program
  exact ⟨hbytes, hbytes.loaded_iff,
    .of_commutes (loadBytes_commutes program) fitting_size_le (loadBytes_loads s program)⟩

def shelved (path : String) : Except PathError (Array Byte) :=
  if path = "game" then .ok #[0x12, 0x00]
  else if path = "saga" then .ok (Array.replicate 3585 0)
  else .error .missing

def shelf : Host :=
  { Host.quiet with files := shelved }

theorem shelf_outcomes :
    "game".contains '\x00' = false ∧ "saga".contains '\x00' = false ∧
      "gone".contains '\x00' = false ∧
      (∃ t, loadProgram shelf "game" (.fresh .absent) = .ok true t) ∧
      (∃ e t, loadProgram shelf "saga" (.fresh .absent) = .error e t) ∧
      (∃ t, loadProgram shelf "gone" (.fresh .absent) = .ok false t) := by
  have hgame : "game".contains '\x00' = false := by simp
  have hsaga : "saga".contains '\x00' = false := by simp
  have hgone : "gone".contains '\x00' = false := by simp
  have hloaded := (loading_apart_from_boot shelf (.fresh .absent) hgame).1.loaded_iff
  have htooLarge := (loading_apart_from_boot shelf (.fresh .absent) hsaga).1.tooLarge_iff
  have hunreadable := (loading_apart_from_boot shelf (.fresh .absent) hgone).1.unreadable_iff
  exact ⟨hgame, hsaga, hgone, hloaded.2 ⟨#[0x12, 0x00], rfl, by decide⟩,
    htooLarge.2 ⟨Array.replicate 3585 0, rfl, by simp⟩, hunreadable.2 ⟨.missing, rfl⟩⟩

end ChipEight
