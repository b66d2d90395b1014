import ChipEight.Machine.Perform
import ChipEight.Proofs.Pixels

/-! What an instruction leaves behind, and whether it fails, told at once from the machine that it
is carried out on. -/

namespace ChipEight

def Registers.loaded (r : Registers) (m : Memory) (a count : Nat) : Registers :=
  ⟨r.cells.mapIdx fun i b => if i < count ∧ a + i < 4096 then m.cell (a + i) else b⟩

theorem Registers.get_loaded (r : Registers) (m : Memory) (a count : Nat) (i : Nibble) :
    (r.loaded m a count).get i =
      if i.toNat < count ∧ a + i.toNat < 4096 then m.cell (a + i.toNat) else r.get i := by
  have hi : i.toNat < 16 := i.isLt
  have hget : ∀ c : Registers, c.get i = c.cells[i.toNat] := fun _ => rfl
  rw [hget, hget]
  exact Vector.getElem_mapIdx hi

theorem Registers.loaded_zero (r : Registers) (m : Memory) (a : Nat) : r.loaded m a 0 = r := by
  apply Bank.ext_get
  intro i
  rw [get_loaded, if_neg (by omega)]

theorem Registers.loaded_succ (r : Registers) (m : Memory) {a k : Nat} (hk : k < 16)
    (ha : a + k < 4096) :
    (r.loaded m a k).set (BitVec.ofNat 4 k) (m.cell (a + k)) = r.loaded m a (k + 1) := by
  apply Bank.ext_get
  intro i
  rw [Bank.get_set, get_loaded, get_loaded]
  by_cases hi : i = BitVec.ofNat 4 k
  · have hik : i.toNat = k := by rw [hi, BitVec.toNat_ofNat, Nat.mod_eq_of_lt hk]
    rw [if_pos hi, hik, if_pos ⟨Nat.lt_succ_self k, ha⟩]
  · have hik : i.toNat ≠ k := fun h => hi (by rw [← h, BitVec.ofNat_toNat, BitVec.setWidth_eq])
    have hiff : i.toNat < k ↔ i.toNat < k + 1 := by omega
    simp only [if_neg hi, hiff]

theorem Registers.loaded_past (r : Registers) (m : Memory) {a k : Nat} (ha : 4096 ≤ a + k)
    (n : Nat) : r.loaded m a (k + n) = r.loaded m a k := by
  apply Bank.ext_get
  intro i
  have hiff : i.toNat < k + n ∧ a + i.toNat < 4096 ↔ i.toNat < k ∧ a + i.toNat < 4096 := by omega
  simp only [get_loaded, hiff]

def Memory.sprite (m : Memory) (a rows x y px py : Nat) : Bool :=
  decide (x ≤ px ∧ px < x + 8 ∧ y ≤ py ∧ py < y + rows) &&
    (m.cell (a + (py - y))).getLsbD (7 - (px - x))

def decimalDigits (b : Byte) : List Byte :=
  [b / 100, b / 10 % 10, b % 10]

theorem map_toNat_decimalDigits (b : Byte) :
    (decimalDigits b).map (·.toNat) = [b.toNat / 100, b.toNat / 10 % 10, b.toNat % 10] := by
  simp only [decimalDigits, List.map_cons, List.map_nil, BitVec.toNat_udiv, BitVec.toNat_umod]
  rfl

theorem length_decimalDigits (b : Byte) : (decimalDigits b).length = 3 := rfl

namespace Machine

def drawn (m : Machine) (p : Nat → Nat → Bool) : Machine :=
  { m with
    screen := m.screen.inverted p
    registers := if m.screen.meets p then m.registers.set Registers.flag 1 else m.registers }

@[simp] theorem drawn_memory (m : Machine) (p : Nat → Nat → Bool) :
    (m.drawn p).memory = m.memory := by
  rw [drawn]

@[simp] theorem drawn_index (m : Machine) (p : Nat → Nat → Bool) :
    (m.drawn p).index = m.index := by
  rw [drawn]

@[simp] theorem drawn_dirty (m : Machine) (p : Nat → Nat → Bool) :
    (m.drawn p).dirty = m.dirty := by
  rw [drawn]

theorem drawn_registers (m : Machine) (p : Nat → Nat → Bool) :
    ((m.setV Registers.flag 0).drawn p).registers =
      m.registers.set Registers.flag (if m.screen.meets p then 1 else 0) := by
  have hscreen : (m.setV Registers.flag 0).screen = m.screen := by rw [setV]
  have hregisters : (m.setV Registers.flag 0).registers = m.registers.set Registers.flag 0 := by
    rw [setV]
  simp only [drawn, hscreen, hregisters]
  cases m.screen.meets p
  · rfl
  · exact Bank.set_set ..

theorem setV_flag_drawn (m : Machine) (p : Nat → Nat → Bool) :
    (m.setV Registers.flag 0).drawn p = { m with
      screen := m.screen.inverted p
      registers := m.registers.set Registers.flag (if m.screen.meets p then 1 else 0) } := by
  have hregisters := m.drawn_registers p
  simp only [drawn, setV] at hregisters ⊢
  rw [hregisters]

theorem drawn_congr (m : Machine) {p q : Nat → Nat → Bool}
    (hpq : ∀ x y, x < 64 ∧ y < 32 → p x y = q x y) : m.drawn p = m.drawn q := by
  rw [drawn, drawn, m.screen.inverted_congr hpq, m.screen.meets_congr hpq]

theorem drawn_nowhere (m : Machine) {p : Nat → Nat → Bool}
    (hp : ∀ x y, x < 64 ∧ y < 32 → p x y = false) : m.drawn p = m := by
  rw [drawn, m.screen.inverted_nowhere hp, m.screen.meets_nowhere hp]
  rfl

theorem drawn_drawn (m : Machine) {p q : Nat → Nat → Bool}
    (hpq : ∀ x y, p x y = true → q x y = false) :
    (m.drawn p).drawn q = m.drawn fun x y => p x y || q x y := by
  have hflag : ∀ b c : Bool, (if c then (if b then m.registers.set Registers.flag 1
      else m.registers).set Registers.flag 1
      else if b then m.registers.set Registers.flag 1 else m.registers) =
      if b || c then m.registers.set Registers.flag 1 else m.registers := by
    intro b c
    cases b <;> cases c <;> simp [Bank.set_set]
  simp only [drawn, Grid.inverted_inverted _ hpq, Grid.meets_inverted _ hpq, Grid.meets_or, hflag]

def originX (m : Machine) (op : Opcode) : Nat := (m.v op.x).toNat % 64

def originY (m : Machine) (op : Opcode) : Nat := (m.v op.y).toNat % 32

def visibleRows (m : Machine) (op : Opcode) : Nat :=
  min op.n.toNat (32 - m.originY op)

def beyond? (m : Machine) (count : Nat) : Option Fault :=
  if 4096 < m.index.toNat + count then some (.memoryAccess 4096) else none

/-- Why an instruction fails, if it does. -/
def fault? (m : Machine) (op : Opcode) : Option Fault :=
  match op.form with
  | .ret => if m.stack.depth = 0 then some .stackUnderflow else none
  | .call => if m.stack.depth = 16 then some .stackOverflow else none
  | .storeBcd => m.beyond? 3
  | .storeRegs | .loadRegs => m.beyond? (op.x.toNat + 1)
  | .draw => m.beyond? (m.visibleRows op)
  | _ => none

def drawEffect (m : Machine) (op : Opcode) : Machine :=
  let rows := min (m.visibleRows op) (4096 - m.index.toNat)
  let sprite := m.memory.sprite m.index.toNat rows (m.originX op) (m.originY op)
  { (m.setV Registers.flag 0).drawn sprite with
    dirty := m.dirty || (m.beyond? (m.visibleRows op)).isNone }

def glyphAddress (digit : Nibble) : Address :=
  BitVec.ofNat 12 (Memory.fontStart + digit.toNat * Font.height)

/-- What an instruction leaves of the machine, be it completed or not. -/
def effect (m : Machine) (op : Opcode) (answer : Int) : Machine :=
  let vx := m.v op.x
  let vy := m.v op.y
  match op.form with
  | .callMachineRoutine => m
  | .clearScreen => { m with screen := .blank }
  | .ret =>
    match m.stack.pop with
    | .ok (a, stack) => { m with stack, counter := Address.wrap a + 2 }
    | .error _ => m
  | .jump => { m with counter := op.nnn }
  | .call =>
    match m.stack.push m.counter.toNat with
    | .ok stack => { m with stack, counter := op.nnn }
    | .error _ => m
  | .skipEqImm => m.skipIf (vx = op.nn)
  | .skipNeImm => m.skipIf (vx ≠ op.nn)
  | .skipEqReg => m.skipIf (vx = vy)
  | .setImm => m.setV op.x op.nn
  | .addImm => m.setV op.x (vx + op.nn)
  | .setReg => m.setV op.x vy
  | .or => m.setV op.x (vx ||| vy)
  | .and => m.setV op.x (vx &&& vy)
  | .xor => m.setV op.x (vx ^^^ vy)
  | .addReg => m.setWithFlag op.x (vx + vy) (255 < vx.toNat + vy.toNat)
  | .subReg => m.setWithFlag op.x (vx - vy) (vy ≤ vx)
  | .shr => m.setWithFlag op.x (vx >>> 1) (vx.getLsbD 0)
  | .subnReg => m.setWithFlag op.x (vy - vx) (vx ≤ vy)
  | .shl => m.setWithFlag op.x (vx <<< 1) vx.msb
  | .skipNeReg => m.skipIf (vx ≠ vy)
  | .setAddress => { m with index := op.nnn }
  | .jumpPlusV0 => { m with counter := op.nnn + (m.v 0).setWidth 12 }
  | .rand => m.setV op.x (BitVec.ofInt 8 answer &&& op.nn)
  | .draw => m.drawEffect op
  | .skipIfPressed => m.skipIf (m.keypad.held.get (vx.setWidth 4))
  | .skipIfNotPressed => m.skipIf !(m.keypad.held.get (vx.setWidth 4))
  | .readDelay => m.setV op.x m.delay.value
  | .waitKey => m.setV op.x ((BitVec.ofInt 4 answer).setWidth 8)
  | .setDelay => { m with delay := ⟨vx⟩ }
  | .setSound => { m with sound := ⟨vx⟩ }
  | .addToAddress => { m with index := m.index + vx.setWidth 12 }
  | .fontAddress => { m with index := glyphAddress (vx.setWidth 4) }
  | .storeBcd => { m with memory := m.memory.overwrite m.index.toNat (decimalDigits vx) }
  | .storeRegs =>
    let bytes := (List.range (op.x.toNat + 1)).map fun i => m.v (BitVec.ofNat 4 i)
    { m with memory := m.memory.overwrite m.index.toNat bytes }
  | .loadRegs =>
    { m with registers := m.registers.loaded m.memory m.index.toNat (op.x.toNat + 1) }

end Machine

end ChipEight
