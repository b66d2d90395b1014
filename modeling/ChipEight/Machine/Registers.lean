import ChipEight.Nibble

/-! The sixteen data registers of a byte each. -/

namespace ChipEight

abbrev Registers := Bank Byte

namespace Registers

def flag : Nibble := 0xF

def zero : Registers := Bank.fill 0

def registerIndex (i : Int) : Except Fault Nibble :=
  match fit? 4 i with
  | some r => .ok r
  | none => .error (.registerIndex i)

def read (r : Registers) (i : Int) : Except Fault Byte := do
  return r.get (← registerIndex i)

def write (r : Registers) (i v : Int) : Except Fault Registers := do
  -- the index is checked before the value
  let i ← registerIndex i
  let b ← fit 8 (.register i v) v
  return r.set i b

def text (r : Registers) : String :=
  " ".intercalate <| (List.finRange 16).map fun i =>
    registerName (BitVec.ofFin i) ++ "=" ++ Text.hex 2 (r.get (BitVec.ofFin i)).toNat

end Registers

end ChipEight
