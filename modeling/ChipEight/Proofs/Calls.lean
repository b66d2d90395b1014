import ChipEight.Proofs.Chain
import ChipEight.Proofs.Surroundings
import ChipEight.Session.Events
import ChipEight.Session.Loading

/-! Sequences of calls by the host, each of which may fail and leaves a session all the same. -/

namespace ChipEight

open Actions

inductive Call
  | boot
  | load (values : List Int)
  | loadFile (path : String)
  | press (name : KeyName)
  | release (name : KeyName)
  | fetch
  | cycle
  | execute (v : Int)
  | tick
  | run (limit : Int)
  | stop
  | post (events : List Event)
  | pump
  | poll

namespace Call

def action (h : Host) : Call → SessionM Unit
  | boot => ChipEight.boot
  | load values => do loadBytes (← SessionM.ofExcept (imageOf values))
  | loadFile path => do let _ ← loadProgram h path
  | press name => modify (·.grant (.press name))
  | release name => modify (·.grant (.release name))
  | fetch => do let _ ← SessionM.ofExcept (← get).machine.fetch
  | cycle => do let _ ← ChipEight.cycle h
  | execute v => executeInt h v
  | tick => modify (·.tickTimers h)
  | run limit => do let _ ← ChipEight.run h limit
  | stop => ChipEight.stop
  | post events => ChipEight.post events
  | pump => do let _ ← ChipEight.pump
  | poll => do let _ ← ChipEight.poll

def executes : Call → Bool
  | cycle | execute _ | run _ => true
  | _ => false

end Call

namespace Session

/-- The session after some calls, in each of which the host may have other hooks, files and random
numbers. -/
def after (s : Session) : List (Host × Call) → Session
  | [] => s
  | (h, c) :: calls => (leftBy (c.action h) s).after calls

theorem after_append (s : Session) (calls more : List (Host × Call)) :
    s.after (calls ++ more) = (s.after calls).after more := by
  induction calls generalizing s with
  | nil => rfl
  | cons call calls ih => exact ih _

theorem after_cycle {s s' : Session} {h : Host} {op : Opcode} (hs : cycle h s = .ok op s') :
    s.after [(h, .cycle)] = s' := by
  have haction : (cycle h >>= fun _ => pure ()) s = .ok () s' := by
    rw [bind_apply, hs, proceed_ok]
    rfl
  rw [after, after, Call.action]
  exact leftBy_of_ok haction

theorem after_induction {P : Session → Prop} {calls : List (Host × Call)} {s : Session}
    (hs : P s) (hkeeps : ∀ call ∈ calls, Keeps P (call.2.action call.1)) : P (s.after calls) := by
  induction calls generalizing s with
  | nil => exact hs
  | cons call calls ih =>
    exact ih (hkeeps call (List.mem_cons_self ..) s hs)
      fun c hc => hkeeps c (List.mem_cons_of_mem _ hc)

/-- A session that calls lead to from a new machine. -/
def Reachable (s : Session) : Prop :=
  ∃ source calls, s = (Session.fresh source).after calls

theorem Reachable.after {s : Session} (hs : s.Reachable) (calls : List (Host × Call)) :
    (s.after calls).Reachable := by
  obtain ⟨source, before, rfl⟩ := hs
  exact ⟨source, before ++ calls, (after_append _ before calls).symm⟩

end Session

/-- A completed cycle, before which the host may make calls that execute nothing. It is listed with
what was executed and the session that was left. -/
def CompletedStep (s : Session) (step : Opcode × Session) (s' : Session) : Prop :=
  step.2 = s' ∧ ∃ (h : Host) (calls : List (Host × Call)),
    (∀ call ∈ calls, call.2.executes = false) ∧ cycle h (s.after calls) = .ok step.1 s'

def CompletedRun (s : Session) (run : List (Opcode × Session)) : Prop :=
  ∃ s', Chain CompletedStep s run s'

namespace Machine

/-- A property of machines that nothing but the execution of instructions can end. -/
structure Stable (Q : Machine → Prop) : Prop where
  touched : ∀ {m m' : Machine}, Q m → m.Touched m' → Q m'
  timers : ∀ {m : Machine} (delay sound : Timer), Q m → Q { m with delay := delay, sound := sound }
  boot : ∀ {m : Machine}, Q m → Q m.boot
  load : ∀ {m m' : Machine} {program : Array Byte}, Q m → m.load program = .ok m' → Q m'

structure Invariant (Q : Machine → Prop) : Prop extends Stable Q where
  dirty : ∀ {m : Machine} (dirty : Bool), Q m → Q { m with dirty := dirty }
  enter : ∀ {m : Machine} (op : Opcode), Q m → Q (m.enter op)
  effect : ∀ {m : Machine} (op : Opcode) (answer : Int), Q m → Q (m.effect op answer)

end Machine

section Keeps

abbrev KeepsMachine {α : Type} (Q : Machine → Prop) (x : SessionM α) : Prop :=
  Keeps (fun s => Q s.machine) x

variable {Q : Machine → Prop}

theorem ofExcept_keeps {α : Type} (x : Except Fault α) :
    KeepsMachine Q (SessionM.ofExcept x) := by
  cases x <;> exact fun _ hs => hs

theorem trace_keeps (h : Host) (text : Session → String) :
    KeepsMachine Q (modify fun s => s.trace h (text s) : SessionM Unit) := by
  refine .modify fun s hs => ?_
  rwa [Session.trace_machine]

theorem revise_keeps {f : Machine → Except Fault Machine}
    (hf : ∀ {m m' : Machine}, Q m → f m = .ok m' → Q m') : KeepsMachine Q (revise f) := by
  intro s hs
  unfold leftBy revise
  cases hm : f s.machine with
  | ok m => exact hf hs hm
  | error e => exact hs

namespace Machine.Stable

variable (hQ : Machine.Stable Q) (h : Host)
include hQ

theorem loadBytes_keeps (program : Array Byte) : KeepsMachine Q (loadBytes program) :=
  revise_keeps fun hs hm => hQ.load hs hm

theorem loadProgram_keeps (path : String) : KeepsMachine Q (loadProgram h path) := by
  unfold loadProgram
  dsimp only
  split
  · exact fun _ hs => hs
  · cases h.files path with
    | error e => exact .bind (.modify fun _ hs => hs) fun _ => .pure false
    | ok program =>
      exact .bind (hQ.loadBytes_keeps program) fun _ =>
        .bind (trace_keeps h fun _ => loaded path) fun _ => .pure true

theorem grant_keeps (r : Request) : KeepsMachine Q (modify (·.grant r) : SessionM Unit) :=
  .modify fun s hs => hQ.touched hs (s.grant_touched r)

theorem tickTimers_keeps : KeepsMachine Q (modify (·.tickTimers h) : SessionM Unit) :=
  .modify fun s hs => hQ.touched (hQ.timers _ _ hs) (s.tickTimers_touched h)

theorem pump_keeps : KeepsMachine Q pump :=
  fun s hs => hQ.touched hs ⟨_, s.machine.running, rfl⟩

theorem poll_keeps : KeepsMachine Q poll := by
  intro s hs
  unfold leftBy poll
  cases s.keyboard.queue with
  | nil => exact hs
  | cons e rest =>
    dsimp only
    cases e.isQuit
    · exact hQ.touched hs ⟨_, s.machine.running, rfl⟩
    · exact hs

theorem idle_keeps {c : Call} (hc : c.executes = false) : KeepsMachine Q (c.action h) := by
  cases c with
  | boot => exact .modify fun _ hs => hQ.boot hs
  | load values => exact .bind (ofExcept_keeps _) hQ.loadBytes_keeps
  | loadFile path => exact .bind (hQ.loadProgram_keeps h path) fun _ => .pure ()
  | press name => exact hQ.grant_keeps _
  | release name => exact hQ.grant_keeps _
  | fetch => exact .bind (fun _ hs => hs) fun _ => .bind (ofExcept_keeps _) fun _ => .pure ()
  | tick => exact hQ.tickTimers_keeps h
  | stop => exact hQ.grant_keeps .stop
  | post events => exact .modify fun _ hs => hs
  | pump => exact .bind hQ.pump_keeps fun _ => .pure ()
  | poll => exact .bind hQ.poll_keeps fun _ => .pure ()
  | cycle | execute | run => cases hc

end Machine.Stable

namespace Machine.Invariant

variable (hQ : Machine.Invariant Q) (h : Host)
include hQ

theorem answerTo_keeps (f : Form) : KeepsMachine Q (answerTo h f) :=
  fun s hs => hQ.touched hs (answerTo_touched h f s)

theorem perform_keeps (op : Opcode) (answer : Int) :
    KeepsMachine Q (SessionM.ofMachine (op.perform answer)) := by
  intro s hs
  cases hf : s.machine.fault? op with
  | none =>
    rw [leftBy_of_ok (SessionM.ofMachine_perform_of_none s hf answer)]
    exact hQ.effect op answer hs
  | some f =>
    rw [leftBy_of_error (SessionM.ofMachine_perform_of_fault s hf answer)]
    exact hQ.effect op answer hs

theorem execute_keeps (op : Opcode) : KeepsMachine Q (execute h op) :=
  .bind (.modify fun _ hs => hQ.enter op hs) fun _ =>
    .bind (hQ.answerTo_keeps h op.form) fun answer =>
      .bind (hQ.perform_keeps op answer) fun _ => trace_keeps h _

omit hQ in
theorem decodeIntTraced_keeps (v : Int) : KeepsMachine Q (decodeIntTraced h v) :=
  .bind (ofExcept_keeps _) fun _ => .bind (trace_keeps h _) fun _ => ofExcept_keeps _

theorem conclude_keeps :
    KeepsMachine Q (modify fun s => (s.tickTimers h).present h : SessionM Unit) :=
  .modify fun s hs =>
    hQ.touched (hQ.dirty _ (hQ.touched (hQ.timers _ _ hs) (s.tickTimers_touched h)))
      ((s.tickTimers h).present_touched h)

theorem cycle_keeps : KeepsMachine Q (cycle h) :=
  .bind (.modify fun _ hs => hQ.dirty false hs) fun _ =>
    .bind (fun _ hs => hs) fun _ =>
      .bind (ofExcept_keeps _) fun _ =>
        .bind (decodeIntTraced_keeps h _) fun op =>
          .bind (hQ.execute_keeps h op) fun _ => .bind (hQ.conclude_keeps h) fun _ => .pure op

theorem runFor_keeps (limit count : Nat) : KeepsMachine Q (runFor h limit count) := by
  induction limit generalizing count with
  | zero => exact .pure count
  | succ limit ih =>
    refine .bind (fun _ hs => hs) fun s => ?_
    split
    · exact .bind (hQ.cycle_keeps h) fun _ => ih (count + 1)
    · exact .pure count

theorem run_keeps (limit : Int) : KeepsMachine Q (run h limit) := by
  have hrunning : ∀ running, KeepsMachine Q
      (modify (·.onMachine fun m => { m with running := running }) : SessionM Unit) :=
    fun running => .modify fun s hs => hQ.touched hs ⟨s.machine.keypad, running, rfl⟩
  exact .bind (hrunning true) fun _ =>
    .bind (hQ.runFor_keeps h _ _) fun count => .bind (hrunning false) fun _ => .pure count

theorem action_keeps (c : Call) : KeepsMachine Q (c.action h) := by
  cases c with
  | cycle => exact .bind (hQ.cycle_keeps h) fun _ => .pure ()
  | execute v => exact .bind (decodeIntTraced_keeps h v) fun op => hQ.execute_keeps h op
  | run limit => exact .bind (hQ.run_keeps h limit) fun _ => .pure ()
  | _ => exact hQ.idle_keeps h rfl

theorem after_keeps {s : Session} (hs : Q s.machine) (calls : List (Host × Call)) :
    Q (s.after calls).machine :=
  Session.after_induction (P := fun s => Q s.machine) hs fun call _ => hQ.action_keeps call.1 call.2

end Machine.Invariant

theorem Machine.Stable.after_keeps (hQ : Machine.Stable Q) {s : Session} (hs : Q s.machine)
    {calls : List (Host × Call)} (hcalls : ∀ call ∈ calls, call.2.executes = false) :
    Q (s.after calls).machine :=
  Session.after_induction (P := fun s => Q s.machine) hs
    fun call hc => hQ.idle_keeps call.1 (hcalls call hc)

end Keeps

end ChipEight
