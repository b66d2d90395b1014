import ChipEight.Text.Numeral

/-! Decimal digits of all scripts, blanks, and the integers written with them. -/

namespace ChipEight.Text

def scriptZeros : List Nat :=
    [48, 1632, 1776, 1984, 2406, 2534, 2662, 2790, 2918, 3046, 3174, 3302, 3430, 3558, 3664,
   3792, 3872, 4160, 4240, 6112, 6160, 6470, 6608, 6784, 6800, 6992, 7088, 7232, 7248, 42528,
   43216, 43264, 43472, 43504, 43600, 44016, 65296, 66720, 68912, 69734, 69872, 69942, 70096,
   70384, 70736, 70864, 71248, 71360, 71472, 71904, 72016, 72784, 73040, 73120, 92768, 92864,
   93008, 120782, 120792, 120802, 120812, 120822, 123200, 123632, 125264, 130032]

def digitValue? (c : Char) : Option Nat :=
  (scriptZeros.find? fun z => z ≤ c.toNat && c.toNat < z + 10).map (c.toNat - ·)

def isDecimalDigit (c : Char) : Bool :=
  (digitValue? c).isSome

def blanks : List Nat :=
    [9, 10, 11, 12, 13, 32, 133, 160, 5760, 8192, 8193, 8194, 8195, 8196, 8197, 8198, 8199,
   8200, 8201, 8202, 8232, 8233, 8239, 8287, 12288]

def isBlank (c : Char) : Bool :=
  blanks.contains c.toNat

def stripBlanks (cs : List Char) : List Char :=
  ((cs.dropWhile isBlank).reverse.dropWhile isBlank).reverse

inductive IntegerError
  | malformed (text : String)
  | tooLong (digits : Nat)
deriving DecidableEq, Repr

def maxDigits : Nat := 4300

def readDigits? : List Char → Option (List Nat)
  | [] => none
  | [c] => (digitValue? c).map ([·])
  | c :: '_' :: cs => do
    let d ← digitValue? c
    return d :: (← readDigits? cs)
  | c :: cs => do
    let d ← digitValue? c
    return d :: (← readDigits? cs)

def splitSign : List Char → Bool × List Char
  | '-' :: cs => (true, cs)
  | '+' :: cs => (false, cs)
  | cs => (false, cs)

/-- Reads an optional sign and digits, blanks around them ignored. A number that is too long is
reported as such even when something else follows its digits. -/
def readInteger (text : String) : Except IntegerError Int :=
  let (negative, body) := splitSign (stripBlanks text.toList)
  let inNumber := fun c => isDecimalDigit c || c == '_'
  match readDigits? (body.takeWhile inNumber) with
  | none => .error (.malformed text)
  | some ds =>
    if maxDigits < ds.length then .error (.tooLong ds.length)
    else if (body.dropWhile inNumber).isEmpty then
      .ok (if negative then -(ofDigits 10 ds : Int) else ofDigits 10 ds)
    else .error (.malformed text)

end ChipEight.Text
