import ChipEight.CommandLine.Options
import ChipEight.Session.Events
import ChipEight.Session.Loading

/-! The emulator: a program run frame by frame in a window until it is closed. -/

namespace ChipEight

/-- What comes of the calls of a clock, counted from 0: the events that have arrived when it has ticked,
or why it does not tick. -/
abbrev Clock : Type := Nat → Except String (List Event)

/-- What windows are given of the titles and the sides that are asked for, and the clocks there are for
a speed. Sides and speeds that are no numbers are missing. -/
structure WindowSystem where
  entitle : String → Except WindowError Unit
  size : Option (Int × Int) → Except WindowError (Nat × Nat)
  clock : Option Int → Clock

def WindowSystem.standard (events : Nat → List Event) : WindowSystem where
  entitle title := if title.contains '\x00' then .error .brokenTitle else .ok ()
  size
    | some (width, height) => windowSize Settings.desktop width height
    | none => .error .unsized
  clock _ n := .ok (events n)

structure Window where
  file : String
  width : Nat
  height : Nat
deriving DecidableEq, Repr

namespace Window

def titleOf (file : String) : String :=
  (file.splitOn "/").getLastD ""

def title (w : Window) : String := titleOf w.file

def ofOptions (d : WindowSystem) (o : Options) : Except WindowError Window :=
  match o.file with
  | none => .error .untitled
  | some file => do
    d.entitle (titleOf file)
    let (width, height) ← d.size (o.scale.map fun scale =>
      (Settings.screenWidth * scale, Settings.screenHeight * scale))
    return ⟨file, width, height⟩

end Window

inductive FrameEnd
  | completed
  | closed
  | stalled (why : String)
deriving DecidableEq, Repr

/-- How the emulator ends. A fault of the running machine leads to a report of its state; unfinished
is what has only come to the number of frames that it was to have at most. -/
inductive Ending
  | returned
  | left (status : Nat)
  | crashed (report : String)
  | escaped (f : Fault)
  | noWindow (e : WindowError)
  | stalled (why : String)
  | dry
  | unfinished
deriving DecidableEq, Repr

namespace Ending

def crashReport (f : Fault) (m : Machine) : String :=
  "********** THE EMULATOR CRASHED: " ++ f.message ++
    "\n********** WITH THE FOLLOWING STATE\n" ++ m.report

def ofFault (m : Machine) (f : Fault) : Ending :=
  if f.ofMachine then .crashed (crashReport f m) else .escaped f

def ofFrame : FrameEnd → Ending
  | .completed => .unfinished
  | .closed => .returned
  | .stalled why => .stalled why

def ofHalt (onFault : Fault → Ending) : Halt → Ending
  | .fault f => onFault f
  | .dry => .dry
  | .exit status => .left status

end Ending

structure Outcome where
  options : Option Options
  window : Option Window
  ending : Ending
  session : Session

namespace Emulator

def host (o : Options) (tracing : Bool) (files : String → Except PathError (Array Byte))
    (random : Nat → Int) : Host where
  tracing := tracing
  random := random
  renderer := some fun _ frame => ⟨if o.text then frame.echo else "", []⟩
  beeper := some fun _ => ⟨"\x07", []⟩
  files := files

def load (h : Host) (file : String) : SessionM Unit := do
  let _ ← loadProgram h file
  boot

def tick (clock : Clock) : SessionM (Except String (List Event)) := fun s =>
  .ok (clock s.ticks) { s with ticks := s.ticks + 1 }

def turn (h : Host) (clock : Clock) : SessionM FrameEnd := do
  if ← pump then
    match ← tick clock with
    | .ok events =>
      post events
      let _ ← cycle h
      return .completed
    | .error why => return .stalled why
  else return .closed

/-- Goes through frames until one of them is not completed, through `limit` of them at most, and tells
how the last one has ended. -/
def emulate (h : Host) (clock : Clock) : (limit : Nat) → SessionM FrameEnd
  | 0 => return .completed
  | limit + 1 => do
    match ← turn h clock with
    | .completed => emulate h clock limit
    | last => return last

def start (file : String) (h : Host) (clock : Clock) (waiting : List Event) (limit : Nat) :
    Ending × Session :=
  match load h file (.fresh .keyboard) with
  | .error e s => (Ending.ofHalt .escaped e, s)
  | .ok _ s =>
    match emulate h clock limit (s.receive waiting) with
    | .ok last s => (Ending.ofFrame last, s)
    | .error e s => (Ending.ofHalt (Ending.ofFault s.machine) e, s)

def run (arguments : List String) (tracing : Bool)
    (files : String → Except PathError (Array Byte)) (random : Nat → Int) (d : WindowSystem)
    (waiting : List Event) (limit : Nat) : Outcome :=
  match Options.ofArguments arguments with
  | .error r => ⟨none, none, .left r.status, (Session.fresh .keyboard).print (.notice r.notice)⟩
  | .ok o =>
    match Window.ofOptions d o with
    | .error e => ⟨some o, none, .noWindow e, .fresh .keyboard⟩
    | .ok w =>
      let (ending, session) :=
        start w.file (host o tracing files random) (d.clock o.speed) waiting limit
      ⟨some o, some w, ending, session⟩

end Emulator

end ChipEight
