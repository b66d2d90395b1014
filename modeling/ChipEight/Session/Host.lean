import ChipEight.Machine.State

/-! The surroundings of a machine: hooks, files, random numbers and sources of keys. -/

namespace ChipEight

inductive Request
  | stop
  | press (name : KeyName)
  | release (name : KeyName)
deriving DecidableEq, Repr

inductive PathError
  | missing
  | isFolder
  | notFolder
  | nameTooLong
  | other (reason : String)
deriving DecidableEq, Repr

def PathError.message : PathError → String
  | missing => "No such file or directory"
  | isFolder => "Is a directory"
  | notFolder => "Not a directory"
  | nameTooLong => "File name too long"
  | other reason => reason

structure Reply where
  text : String
  requests : List Request

/-- The surroundings that stay the same. Random numbers and the replies of hooks are told apart by
the number of the call, counted from 0. -/
structure Host where
  tracing : Bool
  random : Nat → Int
  renderer : Option (Nat → Frame → Reply)
  beeper : Option (Nat → Reply)
  files : String → Except PathError (Array Byte)

inductive KeySource
  | absent
  | script (names : List KeyName)
  | keyboard

end ChipEight
