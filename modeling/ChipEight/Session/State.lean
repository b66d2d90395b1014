import ChipEight.Session.Host
import ChipEight.Session.Transcript
import ChipEight.Window.Keyboard

/-! A machine in its surroundings, with all that has passed between them. -/

namespace ChipEight

structure Session where
  machine : Machine
  source : KeySource
  keyboard : Keyboard
  asked : Array (Int × Int)
  frames : Nat
  shown : Option Frame
  beeps : Nat
  polls : Nat
  ticks : Nat
  printed : Array Chunk

/-- Why an action was not completed: a fault, a wait for a key that finds no more input, or the end
of the process. -/
inductive Halt
  | fault (f : Fault)
  | dry
  | exit (status : Nat)
deriving DecidableEq, Repr

abbrev SessionM := EStateM Halt Session

namespace Session

def fresh (source : KeySource) : Session where
  machine := .fresh
  source := source
  keyboard := .idle
  asked := #[]
  frames := 0
  shown := none
  beeps := 0
  polls := 0
  ticks := 0
  printed := #[]

def onMachine (s : Session) (f : Machine → Machine) : Session :=
  { s with machine := f s.machine }

def print (s : Session) (c : Chunk) : Session :=
  { s with printed := s.printed.push c }

def grant (s : Session) : Request → Session
  | .stop => s.onMachine fun m => { m with running := false }
  | .press name => s.onMachine fun m => { m with keypad := m.keypad.press name }
  | .release name => s.onMachine fun m => { m with keypad := m.keypad.release name }

def accept (s : Session) (r : Reply) : Session :=
  r.requests.foldl grant (if r.text = "" then s else s.print (.plain r.text))

def trace (s : Session) (h : Host) (text : String) : Session :=
  if h.tracing then s.print (.trace text) else s

def beep (s : Session) (h : Host) : Session :=
  match h.beeper with
  | some beeper => { s with beeps := s.beeps + 1 }.accept (beeper s.beeps)
  | none => s

def tickTimers (s : Session) (h : Host) : Session :=
  let s := s.onMachine Machine.tickDelay
  let s := if s.machine.sound.value = 1 then s.beep h else s
  s.onMachine Machine.tickSound

def present (s : Session) (h : Host) : Session :=
  match h.renderer with
  | some renderer =>
    if s.machine.dirty then
      let frame := s.machine.screen
      let shown := { s with frames := s.frames + 1, shown := some frame }
      (shown.accept (renderer s.frames frame)).onMachine fun m => { m with dirty := false }
    else s
  | none => s

end Session

end ChipEight
