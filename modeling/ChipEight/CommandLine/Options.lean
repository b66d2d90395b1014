import ChipEight.CommandLine.Grammar
import ChipEight.Settings

/-! The options of the emulator. -/

namespace ChipEight

open CommandLine

/-- What has been asked for. A value is missing where the last option that sets it took it away. -/
structure Options where
  file : Option String
  speed : Option Int
  scale : Option Int
  text : Bool
deriving DecidableEq, Repr

inductive Purpose
  | help
  | file
  | speed
  | scale
  | text
deriving DecidableEq, Repr

inductive Refusal
  | help
  | wrong (e : ParseError)
deriving DecidableEq, Repr

namespace Options

def standard : Options where
  file := Settings.defaultProgram
  speed := Settings.clockSpeed
  scale := Settings.scale
  text := false

def specs : List (OptionSpec Purpose) :=
  [⟨.help, ["-h", "--help"], .nothing⟩,
    ⟨.file, ["-f", "--file", "-p", "--program"], .value⟩,
    ⟨.speed, ["-s", "--speed"], .value⟩,
    ⟨.scale, ["--scale"], .value⟩,
    ⟨.text, ["--text"], .nothing⟩]

def readValue (use : Use Purpose) : Except Refusal (Option Int) :=
  match use.text with
  | none => .ok none
  | some text =>
    match Text.readInteger text with
    | .ok n => .ok (some n)
    | .error _ => .error (.wrong (.noInteger use.spec.title text))

def apply (o : Options) (use : Use Purpose) : Except Refusal Options :=
  match use.spec.meaning with
  | .help => .error .help
  | .file => .ok { o with file := use.text }
  | .speed => do return { o with speed := ← readValue use }
  | .scale => do return { o with scale := ← readValue use }
  | .text => .ok { o with text := true }

def ofArguments (arguments : List String) : Except Refusal Options :=
  CommandLine.parse specs .wrong apply standard arguments

end Options

namespace Refusal

def status : Refusal → Nat
  | help => 0
  | wrong _ => 2

def message : Refusal → String
  | help => ""
  | wrong e => e.message

def notice : Refusal → String
  | help => ""
  | wrong e => "chip8: error: " ++ e.message ++ "\n"

end Refusal

end ChipEight
