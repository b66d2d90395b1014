import ChipEight.Proofs.Commuting

/-! Sequences of calls with and without tracing. They are answered alike, and leave sessions that differ in
the trace alone. -/

namespace ChipEight

open Actions

inductive Answer
  | nothing
  | flag (b : Bool)
  | word (w : Word)
  | opcode (op : Opcode)
  | count (n : Nat)
  | code (code : Option Nat)
  | name (name : KeyName)

def Call.respond (h : Host) : Call → SessionM Answer
  | boot => do
    ChipEight.boot
    return .nothing
  | load values => do
    loadBytes (← SessionM.ofExcept (imageOf values))
    return .nothing
  | loadFile path => return .flag (← loadProgram h path)
  | press name => do
    modify (·.grant (.press name))
    return .code ((← get).machine.keypad.code? name)
  | release name => do
    modify (·.grant (.release name))
    return .code ((← get).machine.keypad.code? name)
  | fetch => return .word (← SessionM.ofExcept (← get).machine.fetch)
  | cycle => return .opcode (← ChipEight.cycle h)
  | execute v => do
    executeInt h v
    return .nothing
  | tick => do
    modify (·.tickTimers h)
    return .nothing
  | run limit => return .count (← ChipEight.run h limit)
  | stop => do
    ChipEight.stop
    return .nothing
  | post events => do
    ChipEight.post events
    return .nothing
  | pump => return .flag (← ChipEight.pump)
  | poll => return .name (← ChipEight.poll)

theorem Call.action_eq_respond (h : Host) (c : Call) :
    c.action h = c.respond h >>= fun _ => pure () := by
  cases c with
  | press | release => rfl
  | _ => simp [action, respond]

def Actions.completed? {ε σ α : Type} : EStateM.Result ε σ α → Option σ
  | .ok _ s => some s
  | .error _ _ => none

def passedFor (h : Host) : Nat → Session → List Session
  | 0, _ => []
  | limit + 1, s =>
    if s.machine.running then
      (completed? (cycle h s)).elim [] fun s' => s' :: passedFor h limit s'
    else []

/-- What the host sees of a call: what it comes to, the sessions that it passes if it runs, and the one that
it leaves. -/
structure Happening where
  result : Except Halt Answer
  passed : List Session
  left : Session

namespace Session

def happening (s : Session) (h : Host) (c : Call) : Happening where
  result :=
    match c.respond h s with
    | .ok answer _ => .ok answer
    | .error e _ => .error e
  passed :=
    match c with
    | .run limit => passedFor h limit.toNat (s.setRunning true)
    | _ => []
  left := leftBy (c.respond h) s

theorem happening_left (s : Session) (h : Host) (c : Call) :
    (s.happening h c).left = leftBy (c.action h) s := by
  rw [c.action_eq_respond h, leftBy_discard]
  rfl

end Session

def withTracing (tracing : Bool) (calls : List (Host × Call)) : List (Host × Call) :=
  calls.map fun call => (call.1.withTracing tracing, call.2)

section Muting

variable (h : Host)

end Muting

end ChipEight
