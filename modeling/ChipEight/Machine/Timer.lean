import ChipEight.Fault

/-! Timers that count down to zero. -/

namespace ChipEight

structure Timer where
  value : Byte
deriving DecidableEq, Repr

namespace Timer

def zero : Timer := ⟨0⟩

def ofInt (v : Int) : Except Fault Timer := do
  return ⟨← fit 8 (.timer v) v⟩

def isActive (t : Timer) : Bool :=
  t.value ≠ 0

def tick (t : Timer) : Timer :=
  if t.isActive then ⟨t.value - 1⟩ else t

def text (t : Timer) : String :=
  Text.decimal t.value.toNat

end Timer

end ChipEight
