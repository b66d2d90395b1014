import ChipEight.Machine.CallStack
import ChipEight.Machine.Keypad
import ChipEight.Machine.Memory
import ChipEight.Machine.Registers
import ChipEight.Machine.Screen
import ChipEight.Machine.Timer

/-! The state of a machine, and the report of it that is shown after a crash. -/

namespace ChipEight

abbrev Frame := Screen 64 32

/-- The register `index` points at sprites and at blocks of memory; `current` is the address of the
instruction that was last begun. -/
structure Machine where
  memory : Memory
  stack : CallStack
  registers : Registers
  counter : Address
  index : Address
  delay : Timer
  sound : Timer
  screen : Frame
  keypad : Keypad
  dirty : Bool
  running : Bool
  current : Address

namespace Machine

def fresh : Machine where
  memory := .blank
  stack := .empty
  registers := .zero
  counter := 0
  index := 0
  delay := .zero
  sound := .zero
  screen := .blank
  keypad := .standard
  dirty := false
  running := false
  current := BitVec.ofNat 12 Memory.programStart

def boot (m : Machine) : Machine :=
  { m with
    counter := BitVec.ofNat 12 Memory.programStart
    memory := m.memory.loadFont Memory.fontStart }

def load (m : Machine) (program : Array Byte) : Except Fault Machine :=
  (m.memory.load program Memory.programStart).map fun memory => { m with memory }

def v (m : Machine) (x : Nibble) : Byte :=
  m.registers.get x

def setV (m : Machine) (x : Nibble) (b : Byte) : Machine :=
  { m with registers := m.registers.set x b }

def advance (m : Machine) : Machine :=
  { m with counter := m.counter + 2 }

def skipIf (m : Machine) (condition : Bool) : Machine :=
  if condition then m.advance else m

def setWithFlag (m : Machine) (x : Nibble) (result : Byte) (flag : Bool) : Machine :=
  -- the result comes last and wins where both go to the same register
  (m.setV Registers.flag (if flag then 1 else 0)).setV x result

def fetch (m : Machine) : Except Fault Word :=
  m.memory.readWord m.counter.toNat

def tickDelay (m : Machine) : Machine :=
  { m with delay := m.delay.tick }

def tickSound (m : Machine) : Machine :=
  { m with sound := m.sound.tick }

def report (m : Machine) : String :=
  "PC_REGISTER:" ++ m.counter.text ++ " | IDX_REGISTER:" ++ m.index.text ++
    " | VARIABLE_REGISTERS:" ++ m.registers.text ++
    "\nSTACK:" ++ m.stack.text ++
    "\nDELAY_TIMER:" ++ m.delay.text ++ " | SOUND_TIMER:" ++ m.sound.text ++
    "\nDRAW: " ++ (if m.dirty then "True" else "False") ++ " | KEYPAD: " ++ m.keypad.text

end Machine

end ChipEight
