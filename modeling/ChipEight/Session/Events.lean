import ChipEight.Session.Cycle

/-! The window's events between two cycles. -/

namespace ChipEight

def Session.receive (s : Session) (events : List Event) : Session :=
  { s with keyboard := s.keyboard.post events }

def post (events : List Event) : SessionM Unit :=
  modify (·.receive events)

/-- Takes all events off the queue, also those behind a request to quit, and tells whether none has
been made so far. -/
def pump : SessionM Bool := fun s =>
  let events := s.keyboard.queue
  let quit := s.keyboard.quitRequested || events.any Event.isQuit
  .ok (!quit) { s with
    machine := { s.machine with keypad := s.machine.keypad.applyAll events }
    keyboard := ⟨[], quit⟩ }

def poll : SessionM KeyName := fun s =>
  match s.keyboard.queue with
  | [] => .ok none s
  | e :: rest =>
    let s := { s with keyboard := { s.keyboard with queue := rest } }
    if e.isQuit then .error (.exit 0) s
    else .ok (Keypad.reported e) (s.onMachine fun m => { m with keypad := m.keypad.apply e })

end ChipEight
