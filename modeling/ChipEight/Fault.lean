import ChipEight.Text.Quoted
import ChipEight.Word

/-! The reasons for which an operation is refused, and what is said about each of them. -/

namespace ChipEight

open Text

inductive RangeError
  | nibble (v : Int)
  | byte (v : Int)
  | word (v : Int)
  | hexDigit (text : String)
  | register (index : Nibble) (v : Int)
  | timer (v : Int)
  | cell (v : Int)
  | image
  | pixel (x y width height : Int)
  | path
deriving DecidableEq, Repr

inductive CountError
  | negative
  | unindexable
  | tooLong
  | exhausted
deriving DecidableEq, Repr

inductive Fault
  | unknownOpcode (word : Word)
  | registerIndex (index : Int)
  | stackOverflow
  | stackUnderflow
  | memoryAccess (address : Int)
  | programTooLarge (size : Nat) (offset : Int)
  | noKeySource
  | outOfRange (e : RangeError)
  | uncountable (e : CountError)
deriving DecidableEq, Repr

def embeddedNul : String := "embedded null byte"

def registerName (index : Nibble) : String :=
  String.ofList ['V', upperDigit index.toNat]

def RangeError.message : RangeError → String
  | nibble v => "A nibble must be in range [0, 15], got " ++ decimal v
  | byte v => "A byte must be in range [0, 255], got " ++ decimal v
  | word v => "A word must be in range [0, 65535], got " ++ decimal v
  | hexDigit text => quote text ++ " is not a hex digit"
  | register index v => registerName index ++ " holds 8 bits, got " ++ decimal v
  | timer v => "Timers hold 8 bits, got " ++ decimal v
  | cell v => "Memory cells hold a single byte, got " ++ decimal v
  | image => "bytes must be in range(0, 256)"
  | pixel x y width height =>
    "Pixel (" ++ decimal x ++ ", " ++ decimal y ++ ") is outside of the " ++ decimal width ++ "x" ++
      decimal height ++ " screen"
  | path => embeddedNul

def CountError.message : CountError → String
  | negative => "negative count"
  | unindexable => "cannot fit 'int' into an index-sized integer"
  | tooLong => "byte string is too large"
  | exhausted => ""

def Fault.message : Fault → String
  | unknownOpcode word => "Failed to convert 0x" ++ hex 4 word.toNat ++ " to a known opcode"
  | registerIndex index =>
    "Register index " ++ decimal index ++ " out of bounds, valid range is [0, 15]"
  | stackOverflow => "The CHIP-8 stack can contain at most 16 addresses. Limit exceeded"
  | stackUnderflow => "Return with an empty CHIP-8 stack"
  | memoryAccess address =>
    "Address 0x" ++ hex 4 address ++ " is outside of the 4KB address space"
  | programTooLarge size offset =>
    "A program of " ++ decimal size ++ " bytes does not fit in memory starting at 0x" ++
      hex 3 offset
  | noKeySource => "Waiting for a key press but no key source is attached"
  | outOfRange e => e.message
  | uncountable e => e.message

/-- The faults of a running machine, as opposed to values that do not fit. -/
def Fault.ofMachine : Fault → Bool
  | outOfRange _ | uncountable _ => false
  | _ => true

def fit (n : Nat) (e : RangeError) (v : Int) : Except Fault (BitVec n) :=
  match fit? n v with
  | some b => .ok b
  | none => .error (.outOfRange e)

end ChipEight
