import ChipEight.Machine.Keypad

/-! The keyboard of a window: a queue of events, and what each of them does to the keypad. -/

namespace ChipEight

inductive Event
  | keyDown (key : String)
  | keyUp (key : String)
  | close
  | other
deriving DecidableEq, Repr

def Event.isQuit : Event → Bool
  | close => true
  | keyDown key => key = "escape"
  | _ => false

structure Keyboard where
  queue : List Event
  quitRequested : Bool
deriving DecidableEq, Repr

namespace Keyboard

def idle : Keyboard := ⟨[], false⟩

def post (k : Keyboard) (events : List Event) : Keyboard :=
  { k with queue := k.queue ++ events }

end Keyboard

namespace Keypad

def apply (k : Keypad) : Event → Keypad
  | .keyDown key => k.press (some key)
  | .keyUp key => k.release (some key)
  | _ => k

def applyAll (k : Keypad) (events : List Event) : Keypad :=
  events.foldl (fun k e => if e.isQuit then k else k.apply e) k

def reported : Event → KeyName
  | .keyDown key => some key
  | _ => none

end Keypad

inductive WaitEnd
  | key (code : Nat)
  | quit
  | dry
deriving DecidableEq, Repr

structure Wait where
  ended : WaitEnd
  keypad : Keypad
  rest : List Event

def Keypad.await (k : Keypad) : List Event → Wait
  | [] => ⟨.dry, k, []⟩
  | e :: rest =>
    if e.isQuit then ⟨.quit, k, rest⟩
    else
      match (k.apply e).code? (Keypad.reported e) with
      | some code => ⟨.key code, k.apply e, rest⟩
      | none => (k.apply e).await rest

end ChipEight
