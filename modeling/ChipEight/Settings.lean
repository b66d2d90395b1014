import ChipEight.Machine.State
import ChipEight.Text.Integer
import ChipEight.Text.Quoted
import ChipEight.Window.Surface

/-! The numbers that the program is built on, and the one setting that the environment makes. -/

namespace ChipEight

namespace Settings

def registerCount : Nat := 16

def stackSize : Nat := 16

def lastAddress : Address := 0xFFF

def instructionSize : Nat := 2

def screenWidth : Nat := 64

def screenHeight : Nat := 32

def desktop : Nat × Nat := (1024, 768)

def scale : Int := 15

def clockSpeed : Int := 300

def defaultProgram : String := "pong2.c8"

def background : Colour := ⟨80, 69, 155⟩

def foreground : Colour := ⟨136, 126, 203⟩

end Settings

def Text.IntegerError.message : Text.IntegerError → String
  | .malformed text =>
    "invalid literal for int() with base 10: " ++ String.ofList ((Text.quote text).toList.take 200)
  | .tooLong digits =>
    "Exceeds the limit (" ++ Text.decimal Text.maxDigits ++
      " digits) for integer string conversion: value has " ++ Text.decimal digits ++
      " digits; use sys.set_int_max_str_digits() to increase the limit"

inductive SettingError
  | embeddedNul
  | noInteger (e : Text.IntegerError)
deriving DecidableEq, Repr

def SettingError.message : SettingError → String
  | embeddedNul => ChipEight.embeddedNul
  | noInteger e => e.message

def tracingOf (setting : Option String) : Except SettingError Bool :=
  match setting with
  | none => .ok false
  | some text =>
    if text.contains '\x00' then .error .embeddedNul
    else
      match Text.readInteger text with
      | .ok n => .ok (1 ≤ n)
      | .error e => .error (.noInteger e)

end ChipEight
