import ChipEight.Proofs.Effect
import ChipEight.Proofs.Stack

/-! What each instruction may change, component by component, and what it leaves alone. -/

namespace ChipEight

def Opcode.Writes (op : Opcode) (i : Nibble) : Prop :=
  match op.form with
  | .setImm | .addImm | .setReg | .or | .and | .xor | .rand | .readDelay | .waitKey => i = op.x
  | .addReg | .subReg | .shr | .subnReg | .shl => i = op.x ∨ i = Registers.flag
  | .draw => i = Registers.flag
  | .loadRegs => i.toNat ≤ op.x.toNat
  | _ => False

namespace Machine

def Stores (m : Machine) (op : Opcode) (a : Nat) : Prop :=
  match op.form with
  | .storeBcd => m.index.toNat ≤ a ∧ a ≤ m.index.toNat + 2
  | .storeRegs => m.index.toNat ≤ a ∧ a ≤ m.index.toNat + op.x.toNat
  | _ => False

/-- The second machine is the first one but for what an instruction may change. Nothing is said of the
counter and of the address of the instruction. -/
structure Footprint (m : Machine) (op : Opcode) (m' : Machine) : Prop where
  memory_size : m'.memory.cells.size = m.memory.cells.size
  cell_eq : ∀ a, ¬ m.Stores op a → m'.memory.cell a = m.memory.cell a
  index_eq : op.form ∉ [.setAddress, .addToAddress, .fontAddress] → m'.index = m.index
  stack_eq : op.form ∉ [.call, .ret] → m'.stack = m.stack
  delay_eq : op.form ≠ .setDelay → m'.delay = m.delay
  sound_eq : op.form ≠ .setSound → m'.sound = m.sound
  screen_eq : op.form ∉ [.clearScreen, .draw] → m'.screen = m.screen
  dirty_eq : op.form ≠ .draw → m'.dirty = m.dirty
  register_eq : ∀ i, ¬ op.Writes i → m'.v i = m.v i
  keypad_eq : op.form ≠ .waitKey → m'.keypad = m.keypad
  running_eq : m'.running = m.running

section Begun

variable (m : Machine) (op : Opcode)

theorem enter_eq :
    m.enter op =
      { m with
        current := m.counter
        counter := if op.form.setsCounter then m.counter else m.counter + 2 } := by
  unfold enter
  cases op.form.setsCounter <;> rfl

@[simp] theorem enter_memory : (m.enter op).memory = m.memory := by
  rw [enter_eq]

@[simp] theorem enter_stack : (m.enter op).stack = m.stack := by
  rw [enter_eq]

@[simp] theorem enter_registers : (m.enter op).registers = m.registers := by
  rw [enter_eq]

@[simp] theorem enter_v (i : Nibble) : (m.enter op).v i = m.v i := by
  rw [v, enter_registers, v]

@[simp] theorem enter_index : (m.enter op).index = m.index := by
  rw [enter_eq]

@[simp] theorem enter_keypad : (m.enter op).keypad = m.keypad := by
  rw [enter_eq]

end Begun

namespace Footprint

variable (m : Machine) {op : Opcode}

theorem refl : m.Footprint op m where
  memory_size := rfl
  cell_eq := fun _ _ => rfl
  index_eq := fun _ => rfl
  stack_eq := fun _ => rfl
  delay_eq := fun _ => rfl
  sound_eq := fun _ => rfl
  screen_eq := fun _ => rfl
  dirty_eq := fun _ => rfl
  register_eq := fun _ _ => rfl
  keypad_eq := fun _ => rfl
  running_eq := rfl

variable {m} in
theorem of_begun {m' : Machine} {keypad : Keypad}
    (hkeypad : op.form ≠ .waitKey → keypad = m.keypad)
    (h : Footprint { m.enter op with keypad := keypad } op m') : m.Footprint op m' := by
  rw [enter_eq] at h
  exact { h with keypad_eq := fun hop => (h.keypad_eq hop).trans (hkeypad hop) }

theorem of_counter (counter : Address) : m.Footprint op { m with counter := counter } :=
  { refl m with }

theorem of_skipIf (c : Bool) : m.Footprint op (m.skipIf c) := by
  cases c
  · exact refl m
  · exact of_counter m _

theorem of_stack (hop : op.form ∈ [.call, .ret]) (stack : CallStack) (counter : Address) :
    m.Footprint op { m with stack := stack, counter := counter } :=
  { refl m with stack_eq := fun h => absurd hop h }

theorem of_index (hop : op.form ∈ [.setAddress, .addToAddress, .fontAddress]) (index : Address) :
    m.Footprint op { m with index := index } :=
  { refl m with index_eq := fun h => absurd hop h }

theorem of_overwrite {bs : List Byte}
    (hop : ∀ a, m.index.toNat ≤ a → a < m.index.toNat + bs.length → m.Stores op a) :
    m.Footprint op { m with memory := m.memory.overwrite m.index.toNat bs } := by
  refine { refl m with memory_size := Memory.size_overwrite .., cell_eq := fun a ha => ?_ }
  rw [Memory.cell_overwrite]
  split
  · next hin =>
    have hpast : bs.length ≤ a - m.index.toNat := by
      have : ¬ a < m.index.toNat + bs.length := fun hlt => ha (hop a hin.1 hlt)
      omega
    rw [List.getD_eq_getElem?_getD, List.getElem?_eq_none hpast, Option.getD_none]
  · rfl

theorem of_registers {registers : Registers}
    (hop : ∀ i, ¬ op.Writes i → registers.get i = m.v i) :
    m.Footprint op { m with registers := registers } :=
  { refl m with register_eq := hop }

theorem of_setV (hop : op.Writes op.x) (b : Byte) : m.Footprint op (m.setV op.x b) := by
  refine of_registers m fun i hi => ?_
  have hne : i ≠ op.x := by
    rintro rfl
    exact hi hop
  exact (Bank.get_set ..).trans (if_neg hne)

theorem of_setWithFlag (hop : ∀ i, i = op.x ∨ i = Registers.flag → op.Writes i) (b : Byte)
    (flag : Bool) : m.Footprint op (m.setWithFlag op.x b flag) := by
  refine of_registers m fun i hi => ?_
  have hne : i ≠ op.x ∧ i ≠ Registers.flag := not_or.1 fun h => hi (hop i h)
  rw [Bank.get_set, if_neg hne.1]
  exact (Bank.get_set ..).trans (if_neg hne.2)

theorem of_screen (hop : op.form = .draw) (screen : Frame) (dirty : Bool) {registers : Registers}
    (hregister : ∀ i, ¬ op.Writes i → registers.get i = m.v i) :
    m.Footprint op { m with screen := screen, dirty := dirty, registers := registers } :=
  { of_registers m hregister with
    screen_eq := fun h => absurd (by simp [hop]) h
    dirty_eq := fun h => absurd hop h }

theorem of_drawn (hop : op.form = .draw) (p : Nat → Nat → Bool) (dirty : Bool) :
    m.Footprint op { (m.setV Registers.flag 0).drawn p with dirty := dirty } := by
  have hregister : ∀ i, ¬ op.Writes i →
      ((m.setV Registers.flag 0).drawn p).registers.get i = m.v i := by
    intro i hi
    have hne : i ≠ Registers.flag := by simpa only [Opcode.Writes, hop] using hi
    rw [drawn_registers, Bank.get_set, if_neg hne]
    rfl
  rw [drawn] at hregister ⊢
  exact of_screen m hop _ dirty hregister

end Footprint

variable (m : Machine) (op : Opcode) (answer : Int)

theorem effect_footprint : m.Footprint op (m.effect op answer) := by
  unfold effect
  cases hop : op.form with
  | callMachineRoutine => exact .refl m
  | clearScreen =>
    exact { Footprint.refl m with screen_eq := fun h => absurd (by simp [hop]) h }
  | ret | call =>
    dsimp only
    split
    · exact .of_stack m (by simp [hop]) _ _
    · exact .refl m
  | jump | jumpPlusV0 => exact .of_counter m _
  | skipEqImm | skipNeImm | skipEqReg | skipNeReg | skipIfPressed | skipIfNotPressed =>
    exact .of_skipIf m _
  | setImm | addImm | setReg | or | and | xor | rand | readDelay | waitKey =>
    exact .of_setV m (by simp only [Opcode.Writes, hop]) _
  | addReg | subReg | shr | subnReg | shl =>
    exact .of_setWithFlag m (by simp only [Opcode.Writes, hop, imp_self, implies_true]) _ _
  | draw => exact .of_drawn m hop _ _
  | setAddress | addToAddress | fontAddress => exact .of_index m (by simp [hop]) _
  | setDelay => exact { Footprint.refl m with delay_eq := fun h => absurd hop h }
  | setSound => exact { Footprint.refl m with sound_eq := fun h => absurd hop h }
  | storeBcd =>
    refine .of_overwrite m fun a hlow hhigh => ?_
    rw [length_decimalDigits] at hhigh
    simp only [Stores, hop]
    omega
  | storeRegs =>
    refine .of_overwrite m fun a hlow hhigh => ?_
    rw [List.length_map, List.length_range] at hhigh
    simp only [Stores, hop]
    omega
  | loadRegs =>
    refine .of_registers m fun i hi => ?_
    have hpast : ¬ i.toNat ≤ op.x.toNat := by simpa only [Opcode.Writes, hop] using hi
    rw [Registers.get_loaded, if_neg (by omega)]
    rfl

theorem entered_footprint : m.Footprint op ((m.enter op).effect op answer) :=
  .of_begun (fun _ => m.enter_keypad op) (effect_footprint ..)

theorem effect_keypad : (m.effect op answer).keypad = m.keypad := by
  by_cases hop : op.form = .waitKey
  · simp only [effect, hop]
    rfl
  · exact (m.effect_footprint op answer).keypad_eq hop

theorem effect_stack (hcall : op.form ≠ .call) (hret : op.form ≠ .ret) :
    (m.effect op answer).stack = m.stack :=
  (m.effect_footprint op answer).stack_eq (by simp [hcall, hret])

theorem effect_of_call {l : List Int} (hop : op.form = .call) (hl : m.stack.Holds l)
    (hlt : l.length < 16) :
    ∃ stack, stack.Holds (l ++ [(m.counter.toNat : Int)]) ∧
      m.effect op answer = { m with stack := stack, counter := op.nnn } := by
  obtain ⟨stack, hpush, hstack⟩ := hl.push hlt m.counter.toNat
  refine ⟨stack, hstack, ?_⟩
  simp only [effect, hop, hpush]

theorem effect_of_ret {l : List Int} {a : Int} (hop : op.form = .ret)
    (hl : m.stack.Holds (l ++ [a])) :
    ∃ stack, stack.Holds l ∧
      m.effect op answer = { m with stack := stack, counter := Address.wrap a + 2 } := by
  obtain ⟨stack, hpop, hstack⟩ := hl.pop
  refine ⟨stack, hstack, ?_⟩
  simp only [effect, hop, hpop]

end Machine

end ChipEight
