import ChipEight.Instruction.Decoder
import ChipEight.Machine.Access

/-! What each instruction does to the machine, up to the point where it fails if it does. -/

namespace ChipEight

namespace MachineM

def storeAll (a : Nat) : List Nat → MachineM Unit
  | [] => pure ()
  | v :: vs => do
    writeCell a v
    storeAll (a + 1) vs

def storeRegisters (a : Nat) : List Nat → MachineM Unit
  | [] => pure ()
  | i :: is => do
    writeCell (a + i : Nat) (← readV i)
    storeRegisters a is

def loadRegisters (a : Nat) : List Nat → MachineM Unit
  | [] => pure ()
  | i :: is => do
    writeV i (← readCell (a + i : Nat))
    loadRegisters a is

def drawBit (x y : Nat) (bit : Bool) : MachineM Unit :=
  if bit then do
    if ← flipPixel x y then writeV Registers.flag.toNat 1
  else pure ()

def drawColumns (x y sprite : Nat) : List Nat → MachineM Unit
  | [] => pure ()
  | col :: cols =>
    if x + col < 64 then do
      drawBit (x + col) y (sprite.testBit (7 - col))
      drawColumns x y sprite cols
    else pure ()

def drawRows (x y : Nat) : List Nat → MachineM Unit
  | [] => pure ()
  | row :: rows =>
    if y + row < 32 then do
      let sprite ← readCell ((← get).index.toNat + row : Nat)
      drawColumns x (y + row) sprite (List.range 8)
      drawRows x y rows
    else pure ()

/-- The origin of a sprite wraps around the screen; what lies past the edges is cut off. -/
def draw (x y n : Nat) : MachineM Unit := do
  let left := (← readV x) % 64
  let top := (← readV y) % 32
  writeV Registers.flag.toNat 0
  drawRows left top (List.range n)
  modify ({ · with dirty := true })

end MachineM

namespace Machine

/-- Begins an instruction: it becomes the current one, and the counter moves past it unless the
instruction sets the counter itself. -/
def enter (m : Machine) (op : Opcode) : Machine :=
  let m := { m with current := m.counter }
  if op.form.setsCounter then m else m.advance

end Machine

open MachineM in
/-- Carries out an instruction that has been begun. Two of them use an answer of the host: a random
number, or the code of a key. -/
def Opcode.perform (op : Opcode) (answer : Int) : MachineM Unit :=
  let x := op.x.toNat
  let y := op.y.toNat
  let nn := op.nn.toNat
  let nnn := op.nnn.toNat
  match op.form with
  | .callMachineRoutine => pure ()
  | .clearScreen => modify ({ · with screen := .blank })
  | .ret => do
    jump (← pop)
    modify Machine.advance
  | .jump => jump nnn
  | .call => do
    push (← get).counter.toNat
    jump nnn
  | .skipEqImm => do skipIf ((← readV x) = nn)
  | .skipNeImm => do skipIf ((← readV x) ≠ nn)
  | .skipEqReg => do skipIf ((← readV x) = (← readV y))
  | .setImm => writeV x nn
  | .addImm => do writeV x (((← readV x) + nn) % 256)
  | .setReg => do writeV x (← readV y)
  | .or => do
    let vx ← readV x
    let vy ← readV y
    writeV x (vx ||| vy : Nat)
  | .and => do
    let vx ← readV x
    let vy ← readV y
    writeV x (vx &&& vy : Nat)
  | .xor => do
    let vx ← readV x
    let vy ← readV y
    writeV x (vx ^^^ vy : Nat)
  | .addReg => do
    let sum := (← readV x) + (← readV y)
    writeWithFlag x (sum % 256) (255 < sum)
  | .subReg => do
    let vx ← readV x
    let vy ← readV y
    writeWithFlag x ((vx - vy : Int) % 256) (vy ≤ vx)
  | .shr => do
    let vx ← readV x
    writeWithFlag x (vx / 2) (vx % 2 = 1)
  | .subnReg => do
    let vx ← readV x
    let vy ← readV y
    writeWithFlag x ((vy - vx : Int) % 256) (vx ≤ vy)
  | .shl => do
    let vx ← readV x
    writeWithFlag x (vx * 2 % 256) (vx / 128 % 2 = 1)
  | .skipNeReg => do skipIf ((← readV x) ≠ (← readV y))
  | .setAddress => point nnn
  | .jumpPlusV0 => do jump (nnn + (← readV 0))
  | .rand => writeV x ((answer % 256).toNat &&& nn : Nat)
  | .draw => draw x y op.n.toNat
  | .skipIfPressed => do
    let key := (← readV x) % 16
    skipIf ((← get).keypad.isHeld key)
  | .skipIfNotPressed => do
    let key := (← readV x) % 16
    skipIf !((← get).keypad.isHeld key)
  | .readDelay => do writeV x (← get).delay.value.toNat
  | .waitKey => writeV x (answer % 16)
  | .setDelay => do resetDelay (← readV x)
  | .setSound => do resetSound (← readV x)
  | .addToAddress => do
    let i := (← get).index.toNat
    point (i + (← readV x))
  | .fontAddress => do point (Memory.fontStart + (← readV x) % 16 * Font.height : Nat)
  | .storeBcd => do
    let value ← readV x
    storeAll (← get).index.toNat [value / 100, value / 10 % 10, value % 10]
  | .storeRegs => do storeRegisters (← get).index.toNat (List.range (x + 1))
  | .loadRegs => do loadRegisters (← get).index.toNat (List.range (x + 1))

end ChipEight
