import ChipEight.Proofs.Calls
import ChipEight.Proofs.Hooks

/-! Runs of completed cycles, and what may happen to a session between them. -/

namespace ChipEight

open Actions

namespace Session

def Loaded (s s' : Session) : Prop :=
  ∃ memory counter printed, s' = { s with
    machine := { s.machine with memory := memory, counter := counter }
    printed := printed }

/-- Nothing has been executed since, and no timer has ticked. -/
def Idled (s s' : Session) : Prop :=
  ∃ memory counter keypad running keyboard printed, s' = { s with
    machine := { s.machine with
      memory := memory, counter := counter, keypad := keypad, running := running }
    keyboard := keyboard
    printed := printed }

theorem Loaded.refl (s : Session) : s.Loaded s :=
  ⟨s.machine.memory, s.machine.counter, s.printed, rfl⟩

theorem Loaded.idled {s s' : Session} (h : s.Loaded s') : s.Idled s' := by
  obtain ⟨memory, counter, printed, rfl⟩ := h
  exact ⟨memory, counter, s.machine.keypad, s.machine.running, s.keyboard, printed, rfl⟩

theorem Idled.refl (s : Session) : s.Idled s :=
  (Loaded.refl s).idled

theorem Idled.trans {s s₁ s' : Session} (h₁ : s.Idled s₁) (h₂ : s₁.Idled s') : s.Idled s' := by
  obtain ⟨_, _, _, _, _, _, rfl⟩ := h₁
  obtain ⟨memory, counter, keypad, running, keyboard, printed, rfl⟩ := h₂
  exact ⟨memory, counter, keypad, running, keyboard, printed, rfl⟩

theorem Idled.uncalled {s s' : Session} (h : s.Idled s') :
    s'.frames = s.frames ∧ s'.beeps = s.beeps := by
  obtain ⟨_, _, _, _, _, _, rfl⟩ := h
  exact ⟨rfl, rfl⟩

section Loading

variable {s : Session} (h : Host)

theorem trace_loaded (text : Session → String) :
    Keeps s.Loaded (modify fun s => s.trace h (text s) : SessionM Unit) := by
  refine .modify fun t ht => ?_
  obtain ⟨memory, counter, printed, rfl⟩ := ht
  rw [trace_eq]
  exact ⟨memory, counter, _, rfl⟩

theorem boot_loaded : Keeps s.Loaded boot := by
  refine .modify fun t ht => ?_
  obtain ⟨memory, counter, printed, rfl⟩ := ht
  exact ⟨_, _, printed, rfl⟩

theorem loadBytes_loaded (program : Array Byte) : Keeps s.Loaded (loadBytes program) := by
  intro t ht
  cases hm : t.machine.load program with
  | error f =>
    have hfails : loadBytes program t = .error (.fault f) t := revise_of_error hm
    rwa [leftBy_of_error hfails]
  | ok m =>
    have hmemory : ∃ memory, m = { t.machine with memory := memory } := by
      rw [Machine.load_eq] at hm
      split at hm
      · cases hm
      · cases hm
        exact ⟨_, rfl⟩
    have hloads : loadBytes program t = .ok () { t with machine := m } := revise_of_ok hm
    obtain ⟨memory, rfl⟩ := hmemory
    obtain ⟨_, counter, printed, rfl⟩ := ht
    rw [leftBy_of_ok hloads]
    exact ⟨memory, counter, printed, rfl⟩

theorem loadProgram_loaded (path : String) : Keeps s.Loaded (loadProgram h path) := by
  unfold loadProgram
  dsimp only
  split
  · exact fun _ ht => ht
  · cases h.files path with
    | error e =>
      refine .bind (.modify fun t ht => ?_) fun _ => .pure false
      obtain ⟨memory, counter, printed, rfl⟩ := ht
      exact ⟨memory, counter, _, rfl⟩
    | ok program =>
      exact .bind (loadBytes_loaded program) fun _ =>
        .bind (trace_loaded h fun _ => loaded path) fun _ => .pure true

end Loading

end Session

def Call.idles : Call → Bool
  | cycle | execute _ | run _ | tick => false
  | _ => true

namespace Session

section Idling

variable {s : Session} (h : Host)

theorem idled_of_loaded {α : Type} {x : SessionM α} (hx : ∀ t : Session, Keeps t.Loaded x) :
    Keeps s.Idled x :=
  fun t ht => ht.trans (hx t t (.refl t)).idled

theorem grant_idled (r : Request) : Keeps s.Idled (modify (·.grant r) : SessionM Unit) := by
  refine .modify fun t ht => ht.trans ?_
  cases r with
  | stop => exact ⟨_, _, t.machine.keypad, false, t.keyboard, t.printed, rfl⟩
  | press name => exact ⟨_, _, _, t.machine.running, t.keyboard, t.printed, rfl⟩
  | release name => exact ⟨_, _, _, t.machine.running, t.keyboard, t.printed, rfl⟩

theorem pump_idled : Keeps s.Idled pump :=
  fun t ht => ht.trans ⟨_, _, _, t.machine.running, _, t.printed, rfl⟩

theorem poll_idled : Keeps s.Idled poll := by
  intro t ht
  refine ht.trans ?_
  unfold leftBy poll
  cases t.keyboard.queue with
  | nil => exact .refl t
  | cons e rest =>
    dsimp only
    cases e.isQuit
    · exact ⟨_, _, _, t.machine.running, _, t.printed, rfl⟩
    · exact ⟨_, _, t.machine.keypad, t.machine.running, _, t.printed, rfl⟩

theorem idles_idled {c : Call} (hc : c.idles = true) : Keeps s.Idled (c.action h) := by
  cases c with
  | boot => exact idled_of_loaded fun _ => boot_loaded
  | load values =>
    exact .bind (idled_of_loaded fun _ t ht => by cases imageOf values <;> exact ht)
      fun program => idled_of_loaded fun _ => loadBytes_loaded program
  | loadFile path =>
    exact .bind (idled_of_loaded fun _ => loadProgram_loaded h path) fun _ => .pure ()
  | press name => exact grant_idled _
  | release name => exact grant_idled _
  | fetch =>
    exact .bind (fun _ ht => ht) fun t =>
      .bind (fun _ ht => by cases t.machine.fetch <;> exact ht) fun _ => .pure ()
  | stop => exact grant_idled .stop
  | post events =>
    exact .modify fun t ht => ht.trans ⟨_, _, t.machine.keypad, t.machine.running, _, t.printed, rfl⟩
  | pump => exact .bind pump_idled fun _ => .pure ()
  | poll => exact .bind poll_idled fun _ => .pure ()
  | cycle | execute | run | tick => cases hc

theorem after_idled (s : Session) {calls : List (Host × Call)}
    (hcalls : ∀ call ∈ calls, call.2.idles = true) : s.Idled (s.after calls) :=
  after_induction (Idled.refl s) fun call hcall => idles_idled call.1 (hcalls call hcall)

end Idling

end Session

structure Step where
  before : Session
  op : Opcode
  left : Session

def Session.Paused (s s' : Session) : Prop :=
  ∃ calls : List (Host × Call), (∀ call ∈ calls, call.2.idles = true) ∧ s' = s.after calls

theorem Session.Paused.refl (s : Session) : s.Paused s :=
  ⟨[], List.forall_mem_nil _, rfl⟩

theorem Session.Paused.idled {s s' : Session} (h : s.Paused s') : s.Idled s' := by
  obtain ⟨calls, hcalls, rfl⟩ := h
  exact s.after_idled hcalls

structure Step.Follows (h : Host) (s : Session) (step : Step) (s' : Session) : Prop where
  paused : s.Paused step.before
  cycle_eq : cycle h step.before = .ok step.op step.left
  left_eq : step.left = s'

/-- Completed cycles one after the other, before and after which there may be calls that execute
nothing. -/
def Run (h : Host) (s : Session) (run : List Step) (s' : Session) : Prop :=
  ∃ t, Chain (Step.Follows h) s run t ∧ t.Paused s'

namespace Run

variable {h : Host} {s s' : Session} {run : List Step}

theorem refl (h : Host) (s : Session) : Run h s [] s :=
  ⟨s, .nil s, .refl s⟩

theorem cons {s₁ : Session} {op : Opcode} (hcycle : cycle h s = .ok op s₁)
    (hrest : Run h s₁ run s') : Run h s (⟨s, op, s₁⟩ :: run) s' := by
  obtain ⟨t, hsteps, hpaused⟩ := hrest
  exact ⟨t, .cons ⟨.refl s, hcycle, rfl⟩ hsteps, hpaused⟩

theorem split {before after : List Step} (hrun : Run h s (before ++ after) s') :
    ∃ t, Run h s before t ∧ Run h t after s' := by
  obtain ⟨t', hsteps, hpaused⟩ := hrun
  obtain ⟨t, hbefore, hafter⟩ := hsteps.split
  exact ⟨t, ⟨t, hbefore, .refl t⟩, ⟨t', hafter, hpaused⟩⟩

theorem middle {before after : List Step} {step : Step}
    (hrun : Run h s (before ++ step :: after) s') :
    ∃ t, Run h s before t ∧ t.Idled step.before ∧
      cycle h step.before = .ok step.op step.left ∧ Run h step.left after s' := by
  obtain ⟨t', hsteps, hlast⟩ := hrun
  obtain ⟨t, _, hbefore, ⟨hpaused, hcycle, rfl⟩, hafter⟩ := hsteps.middle
  exact ⟨t, ⟨t, hbefore, .refl t⟩, hpaused.idled, hcycle, ⟨t', hafter, hlast⟩⟩

end Run

/-- How a cycle comes to be completed: its instruction is executed, which calls no hooks, the timers tick,
and the screen is presented. -/
structure Session.Completed (h : Host) (s : Session) (op : Opcode) (executed s' : Session) : Prop where
  execute_eq : execute h op (s.announced h) = .ok () executed
  effect_eq : ∃ answer keypad,
    let m : Machine := { ({ s.machine with dirty := false } : Machine).enter op with keypad := keypad }
    m.fault? op = none ∧ executed.machine = m.effect op answer
  frames_eq : executed.frames = s.frames
  shown_eq : executed.shown = s.shown
  beeps_eq : executed.beeps = s.beeps
  left_eq : s' = (executed.tickTimers h).present h

theorem Answered.uncalled {h : Host} {f : Form} {s s₁ : Session} {answer : Int}
    (ha : Answered h s f answer s₁) :
    s₁.frames = s.frames ∧ s₁.shown = s.shown ∧ s₁.beeps = s.beeps := by
  cases ha with
  | unasked | random | script | keyboard => exact ⟨rfl, rfl, rfl⟩

theorem completed_of_cycle {h : Host} {s s' : Session} {op : Opcode} (hs : cycle h s = .ok op s') :
    ∃ executed, s.Completed h op executed s' := by
  obtain ⟨answer, s₁, hc, rfl⟩ := cycle_ok_iff.1 hs
  have hanswered := answerTo_answered hc.answered
  obtain ⟨keypad, -, hmachine⟩ := hanswered.machine_eq
  obtain ⟨hframes, hshown, hbeeps⟩ := hanswered.uncalled
  unfold Session.begun Session.announced at hframes hshown hbeeps
  rw [Session.trace_eq] at hframes hshown hbeeps
  rw [Session.begun_machine] at hmachine
  refine ⟨_, execute_of_none hc.answered hc.faultless, ⟨answer, keypad, ?_⟩, ?_, ?_, ?_, rfl⟩
  · rw [Session.trace_machine, ← hmachine]
    exact ⟨hc.faultless, rfl⟩
  · rw [Session.trace_eq]
    exact hframes
  · rw [Session.trace_eq]
    exact hshown
  · rw [Session.trace_eq]
    exact hbeeps

end ChipEight
