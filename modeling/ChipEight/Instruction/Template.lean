import ChipEight.Nibble

/-! Templates of four hexadecimal digits and letters, and the words that match them. -/

namespace ChipEight

inductive Place
  | digit (d : Nibble)
  | x
  | y
  | n
deriving DecidableEq, Repr

def Place.isWild : Place → Bool
  | digit _ => false
  | _ => true

def Place.admits : Place → Nibble → Bool
  | digit d, e => d == e
  | _, _ => true

structure Template where
  lead : Nibble
  second : Place
  third : Place
  fourth : Place
deriving DecidableEq, Repr

namespace Template

def places (t : Template) : List Place :=
  [.digit t.lead, t.second, t.third, t.fourth]

def wildcards (t : Template) : Nat :=
  t.places.countP Place.isWild

def admits (t : Template) (w : Word) : Bool :=
  t.lead == w.extractLsb' 12 4 && t.second.admits (w.extractLsb' 8 4) &&
    t.third.admits (w.extractLsb' 4 4) && t.fourth.admits (w.extractLsb' 0 4)

end Template

def Place.char : Place → Char
  | digit d => d.digit
  | x => 'X'
  | y => 'Y'
  | n => 'N'

def Template.text (t : Template) : String :=
  String.ofList (t.places.map Place.char)

def Place.fill : Place → Nibble → Nibble
  | digit d, _ => d
  | _, e => e

def Template.fill (t : Template) (w : Word) : Word :=
  t.lead ++ t.second.fill (w.extractLsb' 8 4) ++ t.third.fill (w.extractLsb' 4 4) ++
    t.fourth.fill (w.extractLsb' 0 4)

end ChipEight
