import ChipEight.Nibble

/-! The sixteen keys, and the layout that gives the keys of a host their codes. -/

namespace ChipEight

abbrev KeyName := Option String

structure Keypad where
  layout : List Char
  held : Bank Bool
deriving DecidableEq, Repr

namespace Keypad

def standardLayout : List Char := "1234qwerasdfzxcv".toList

def ofLayout (layout : List Char) : Keypad :=
  ⟨layout, Bank.fill false⟩

def standard : Keypad := ofLayout standardLayout

def lastPlace? (id : String) : List Char → Option Nat
  | [] => none
  | c :: cs =>
    match lastPlace? id cs with
    | some i => some (i + 1)
    | none => if id = String.singleton c then some 0 else none

def code? (k : Keypad) : KeyName → Option Nat
  | none => none
  | some id => lastPlace? id k.layout

def isHeld (k : Keypad) (code : Int) : Bool :=
  k.held.get (BitVec.ofInt 4 code)

def setHeld (k : Keypad) (code : Int) (down : Bool) : Keypad :=
  { k with held := k.held.set (BitVec.ofInt 4 code) down }

def move (k : Keypad) (name : KeyName) (down : Bool) : Keypad :=
  match k.code? name with
  | some code => k.setHeld code down
  | none => k

def press (k : Keypad) (name : KeyName) : Keypad := k.move name true

def release (k : Keypad) (name : KeyName) : Keypad := k.move name false

structure Search where
  found : Option Nat
  polls : Nat
  rest : List KeyName

def search (k : Keypad) : List KeyName → Search
  | [] => ⟨none, 1, []⟩
  | name :: rest =>
    match k.code? name with
    | some code => ⟨some code, 1, rest⟩
    | none =>
      let s := k.search rest
      { s with polls := s.polls + 1 }

def text (k : Keypad) : String :=
  String.ofList <| (List.finRange 16).map fun i =>
    let d : Nibble := BitVec.ofFin i
    if k.held.get d then d.digit else '.'

end Keypad

end ChipEight
