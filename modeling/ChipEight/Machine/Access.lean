import ChipEight.Machine.State

/-! Checked access to the parts of a machine at work. -/

namespace ChipEight

/-- Work on a machine. What was done before a fault stays done. -/
abbrev MachineM := EStateM Fault Machine

namespace MachineM

def ofExcept {α : Type} : Except Fault α → MachineM α
  | .ok a => pure a
  | .error f => throw f

def readV (i : Int) : MachineM Nat := do
  let b ← ofExcept ((← get).registers.read i)
  return b.toNat

def writeV (i v : Int) : MachineM Unit := do
  let registers ← ofExcept ((← get).registers.write i v)
  modify ({ · with registers })

def readCell (a : Int) : MachineM Nat := do
  let b ← ofExcept ((← get).memory.read a)
  return b.toNat

def writeCell (a v : Int) : MachineM Unit := do
  let memory ← ofExcept ((← get).memory.write a v)
  modify ({ · with memory })

def push (a : Int) : MachineM Unit := do
  let stack ← ofExcept ((← get).stack.push a)
  modify ({ · with stack })

def pop : MachineM Int := do
  let (a, stack) ← ofExcept (← get).stack.pop
  modify ({ · with stack })
  return a

def resetDelay (v : Int) : MachineM Unit := do
  let delay ← ofExcept (Timer.ofInt v)
  modify ({ · with delay })

def resetSound (v : Int) : MachineM Unit := do
  let sound ← ofExcept (Timer.ofInt v)
  modify ({ · with sound })

def flipPixel (x y : Int) : MachineM Bool := do
  let (erased, screen) ← ofExcept ((← get).screen.flip x y)
  modify ({ · with screen })
  return erased

def jump (a : Int) : MachineM Unit :=
  modify ({ · with counter := Address.wrap a })

def point (a : Int) : MachineM Unit :=
  modify ({ · with index := Address.wrap a })

def skipIf (condition : Bool) : MachineM Unit :=
  modify (·.skipIf condition)

def writeWithFlag (i result : Int) (flag : Bool) : MachineM Unit := do
  -- the result comes last and wins where both go to the same register
  writeV Registers.flag.toNat (if flag then 1 else 0)
  writeV i result

end MachineM

end ChipEight
