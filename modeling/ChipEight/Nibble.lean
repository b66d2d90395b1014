import ChipEight.Fault
import ChipEight.Text.UpperCase

/-! Bytes and words as nibbles, and nibbles as hexadecimal digits. -/

namespace ChipEight

open Text

def Byte.high (b : Byte) : Nibble := b.extractLsb' 4 4

def Byte.low (b : Byte) : Nibble := b.extractLsb' 0 4

def Word.nibbles (w : Word) : List Nibble :=
  [w.extractLsb' 12 4, w.extractLsb' 8 4, w.extractLsb' 4 4, w.extractLsb' 0 4]

def splitByte (v : Int) : Except Fault (Nibble × Nibble) := do
  let b ← fit 8 (.byte v) v
  return (Byte.high b, Byte.low b)

def joinNibbles (high low : Int) : Except Fault Byte := do
  let h ← fit 4 (.nibble high) high
  let l ← fit 4 (.nibble low) low
  return h ++ l

def splitWord (v : Int) : Except Fault (List Nibble) := do
  let w ← fit 16 (.word v) v
  return Word.nibbles w

def Nibble.digit (d : Nibble) : Char :=
  upperDigit d.toNat

def hexDigit (v : Int) : Except Fault Char := do
  let d ← fit 4 (.nibble v) v
  return Nibble.digit d

def Nibble.ofDigit? (c : Char) : Option Nibble :=
  if '0' ≤ c ∧ c ≤ '9' then some (BitVec.ofNat 4 (c.toNat - 48))
  else if 'A' ≤ c ∧ c ≤ 'F' then some (BitVec.ofNat 4 (c.toNat - 55))
  else if 'a' ≤ c ∧ c ≤ 'f' then some (BitVec.ofNat 4 (c.toNat - 87))
  else none

def placeOf? (part : List Char) : List Char → Option Nat
  | [] => if part.isEmpty then some 0 else none
  | c :: cs => if part.isPrefixOf (c :: cs) then some 0 else (placeOf? part cs).map (· + 1)

def Nibble.digits : List Char :=
  ['0', '1', '2', '3', '4', '5', '6', '7', '8', '9', 'A', 'B', 'C', 'D', 'E', 'F']

/-- Reads a character by looking for its upper case among the digits. -/
def readHexDigit (text : String) : Except Fault Nibble :=
  match text.toList with
  | [c] =>
    match placeOf? (upperCase c) Nibble.digits with
    | some i => .ok (BitVec.ofNat 4 i)
    | none => .error (.outOfRange (.hexDigit text))
  | _ => .error (.outOfRange (.hexDigit text))

def registerNameOf (index : Int) : Except Fault String := do
  let i ← fit 4 (.nibble index) index
  return registerName i

def Word.text (w : Word) : String :=
  String.ofList (w.nibbles.map Nibble.digit)

def wordDigits (v : Int) : Except Fault String := do
  let nibbles ← splitWord v
  return String.ofList (← nibbles.mapM fun d => hexDigit d.toNat)

theorem Nibble.ofDigit?_digit (d : Nibble) : Nibble.ofDigit? d.digit = some d := by
  revert d
  decide

end ChipEight
