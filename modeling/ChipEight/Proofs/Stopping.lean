import ChipEight.Proofs.Repetition
import ChipEight.Proofs.Shown

/-! Who stops a run: the hooks, when they are called in one of its cycles and ask for it. -/

namespace ChipEight

open Actions

def Reply.stops (r : Reply) : Bool :=
  r.requests.contains .stop

namespace Host

def stopsOnBeep (h : Host) (k : Nat) : Bool :=
  h.beeper.any fun beeper => (beeper k).stops

def stopsOnFrame (h : Host) (k : Nat) (frame : Frame) : Bool :=
  h.renderer.any fun renderer => (renderer k frame).stops

end Host

namespace Session

variable (s : Session) (h : Host)

theorem running_accept (r : Reply) :
    (s.accept r).machine.running = (s.machine.running && !r.stops) := by
  have hgrants : ∀ (rs : List Request) (s : Session),
      (rs.foldl grant s).machine.running = (s.machine.running && !rs.contains .stop) := by
    intro rs
    induction rs with
    | nil => exact fun s => (Bool.and_true _).symm
    | cons r rs ih =>
      intro s
      rw [List.foldl_cons, ih]
      cases r with
      | stop => simp [grant]
      | press name => simp [grant]
      | release name => simp [grant]
  unfold accept
  rw [hgrants]
  split <;> rfl

theorem running_beep :
    (s.beep h).machine.running = (s.machine.running && !h.stopsOnBeep s.beeps) := by
  unfold beep Host.stopsOnBeep
  cases h.beeper with
  | none => exact (Bool.and_true _).symm
  | some beeper => exact running_accept _ _

theorem running_tickTimers :
    (s.tickTimers h).machine.running =
      (s.machine.running && !(decide (s.machine.sound.value = 1) && h.stopsOnBeep s.beeps)) := by
  have hsound : (s.onMachine Machine.tickDelay).machine.sound = s.machine.sound := rfl
  have hbeep := (s.onMachine Machine.tickDelay).running_beep h
  unfold tickTimers
  dsimp only
  rw [hsound]
  by_cases hone : s.machine.sound.value = 1
  · rw [if_pos hone, decide_eq_true hone, Bool.true_and]
    exact hbeep
  · rw [if_neg hone, decide_eq_false hone, Bool.false_and, Bool.not_false, Bool.and_true]
    rfl

theorem running_present :
    (s.present h).machine.running =
      (s.machine.running && !(s.machine.dirty && h.stopsOnFrame s.frames s.machine.screen)) := by
  unfold present Host.stopsOnFrame
  cases h.renderer with
  | none => simp
  | some renderer =>
    dsimp only
    cases s.machine.dirty with
    | false => simp
    | true => exact running_accept _ _

/-- Whether a hook that was called between two sessions asked for a stop: the beeper, or the renderer when
the frame was handed to it that has been shown last. -/
def StopAsked (h : Host) (s s' : Session) : Prop :=
  (s.beeps < s'.beeps ∧ h.stopsOnBeep s.beeps = true) ∨
    s.frames < s'.frames ∧ ∃ frame, s'.shown = some frame ∧ h.stopsOnFrame s.frames frame = true

end Session

section Cycle

variable {h : Host} {s s' : Session} {op : Opcode} {e : Halt}

theorem rings_stop_iff {k : Nat} :
    (decide (s.machine.sound.value = 1) && h.stopsOnBeep k) = true ↔
      0 < s.rings h ∧ h.stopsOnBeep k = true := by
  have hbeeper : h.stopsOnBeep k = true → h.beeper.isSome = true := by
    unfold Host.stopsOnBeep
    cases h.beeper <;> simp
  unfold Session.rings
  rw [Bool.and_eq_true, decide_eq_true_eq]
  refine and_congr_left fun hstop => ?_
  by_cases hone : s.machine.sound.value = 1
  · rw [if_pos ⟨hone, hbeeper hstop⟩]
    exact iff_of_true hone Nat.zero_lt_one
  · rw [if_neg fun hand => hone hand.1]
    exact iff_of_false hone (Nat.lt_irrefl 0)

theorem shown_stop_iff {k : Nat} {frame : Frame} :
    (s.machine.dirty && h.stopsOnFrame k frame) = true ↔
      s.isShown h = true ∧ h.stopsOnFrame k frame = true := by
  have hrenderer : h.stopsOnFrame k frame = true → h.renderer.isSome = true := by
    unfold Host.stopsOnFrame
    cases h.renderer <;> simp
  unfold Session.isShown
  rw [Bool.and_eq_true, Bool.and_eq_true]
  refine and_congr_left fun hstop => ?_
  rw [and_iff_left (hrenderer hstop)]

theorem cycle_running (hs : cycle h s = .ok op s') :
    s'.machine.running = true ↔ s.machine.running = true ∧ ¬ s.StopAsked h s' := by
  obtain ⟨executed, hc⟩ := completed_of_cycle hs
  have hexecuted : executed.machine.running = s.machine.running := by
    obtain ⟨answer, keypad, -, hmachine⟩ := hc.effect_eq
    rw [hmachine, (Machine.effect_footprint ..).running_eq, Machine.enter_eq]
  have hframes := hc.ticked.1
  have hbeeps : (executed.tickTimers h).beeps = s.beeps + executed.rings h := by
    rw [Session.tickTimers_eq, ← hc.beeps_eq]
  -- The beeper is called for the sound that the instruction leaves, the renderer behind the timers.
  have hrunning : s'.machine.running = (s.machine.running &&
      !(decide (executed.machine.sound.value = 1) && h.stopsOnBeep s.beeps) &&
      !((executed.tickTimers h).machine.dirty &&
        h.stopsOnFrame s.frames (executed.tickTimers h).machine.screen)) := by
    rw [hc.left_eq, Session.running_present, Session.running_tickTimers, hexecuted, hc.beeps_eq,
      hframes]
  have hasked : s.StopAsked h s' ↔
      (decide (executed.machine.sound.value = 1) && h.stopsOnBeep s.beeps) = true ∨
      ((executed.tickTimers h).machine.dirty &&
        h.stopsOnFrame s.frames (executed.tickTimers h).machine.screen) = true := by
    rw [Session.StopAsked, rings_stop_iff, shown_stop_iff, hc.left_eq, Session.present_eq]
    dsimp only
    rw [hbeeps, hframes]
    cases (executed.tickTimers h).isShown h <;> simp
  rw [hrunning, hasked]
  generalize (decide (executed.machine.sound.value = 1) && h.stopsOnBeep s.beeps) = beep
  generalize ((executed.tickTimers h).machine.dirty && _) = frame
  rw [Bool.and_eq_true, Bool.and_eq_true, Bool.not_eq_true', Bool.not_eq_true', not_or,
    Bool.not_eq_true, Bool.not_eq_true, and_assoc]

theorem cycle_error_running (hs : cycle h s = .error e s') :
    s'.machine.running = s.machine.running := by
  have hbegun : ∀ op, (s.begun h op).machine.running = s.machine.running := by
    intro op
    rw [Session.begun_machine, Machine.enter_eq]
  have hanswered : ∀ op, (leftBy (answerTo h op.form) (s.begun h op)).machine.running =
      s.machine.running := by
    intro op
    obtain ⟨_, _, _, _, _, hleft⟩ := leftBy_answerTo h op.form (s.begun h op)
    rw [hleft]
    exact hbegun op
  cases cycle_error_iff.1 hs with
  | fetch hc => rfl
  | decode hc hd => rw [Session.announced_machine]; rfl
  | @answer op e s₁ hc hd ha =>
    rw [← leftBy_of_error ha]
    exact hanswered op
  | @perform op answer s₁ f hc hd ha hf =>
    have heffect := (s₁.machine.effect_footprint op answer).running_eq
    rw [← hanswered op, leftBy_of_ok ha]
    exact heffect

theorem cycle_heedless (h : Host) : Heedless (cycle h) where
  commutes := by
    have hveil : Veil h h.tracing (fun _ => false) id :=
      ⟨rfl, fun _ _ => rfl, fun _ _ => rfl⟩
    exact hveil.cycle
  stays := by
    intro s hs
    cases hc : cycle h s with
    | error e s' =>
      rw [leftBy_of_error hc, cycle_error_running hc]
      exact hs
    | ok op s' =>
      rw [leftBy_of_ok hc, Bool.eq_false_iff]
      intro hrunning
      rw [((cycle_running hc).1 hrunning).1] at hs
      cases hs

theorem stopAsked_setRunning (h : Host) (s s' : Session) (b b' : Bool) :
    (s.setRunning b).StopAsked h (s'.setRunning b') ↔ s.StopAsked h s' := by
  unfold Session.StopAsked Session.setRunning Session.onMachine
  exact Iff.rfl

theorem stops_cycle_of_ok (hs : cycle h s = .ok op s') :
    stops (cycle h) s = true ↔ s.StopAsked h s' := by
  have hrunning : cycle h (s.setRunning true) = .ok op (s'.setRunning !stops (cycle h) s) := by
    rw [(cycle_heedless h).step_running s, hs, leaving]
  generalize stops (cycle h) s = stopped at hrunning
  have hiff := cycle_running hrunning
  have hon : (s.setRunning true).machine.running = true := rfl
  have hoff : (s'.setRunning !stopped).machine.running = !stopped := rfl
  rw [stopAsked_setRunning, hon, hoff, eq_self, true_and, Bool.not_eq_true'] at hiff
  rw [← Bool.not_eq_false, hiff, Classical.not_not]

theorem stops_cycle_of_error (hs : cycle h s = .error e s') : stops (cycle h) s = false := by
  have hrunning : cycle h (s.setRunning true) = .error e (s'.setRunning !stops (cycle h) s) := by
    rw [(cycle_heedless h).step_running s, hs, leaving]
  generalize stops (cycle h) s = stopped at hrunning
  have hkept : (!stopped) = true := cycle_error_running hrunning
  rwa [Bool.not_eq_true'] at hkept

end Cycle

/-- A run is made of cycles, the last of which may be one in which a hook asks for a stop. The same holds for
any other step that goes on as well when it has been told to stop, in the course of which a stop may be
asked for by anyone, also where it fails. -/
theorem run_iterates_cycle :
    (∀ h : Host, Iterates (cycle h) (run h) ∧
      (∀ {s s' : Session} {op : Opcode}, cycle h s = .ok op s' →
        (stops (cycle h) s = true ↔ s.StopAsked h s')) ∧
      ∀ {s s' : Session} {e : Halt}, cycle h s = .error e s' → stops (cycle h) s = false) ∧
    ∀ {step : SessionM Opcode}, Heedless step → Iterates step (repeated step) := by
  refine ⟨fun h => ⟨?_, stops_cycle_of_ok, stops_cycle_of_error⟩, fun hstep => hstep.iterates⟩
  rw [run_eq_repeated]
  exact (cycle_heedless h).iterates

def stopping : Host :=
  { Host.quiet with renderer := some fun _ _ => ⟨"", [.stop]⟩ }

def undecodable : Session :=
  .started .absent [0xFF, 0xFF]

theorem stopped_by_renderer :
    (∃ s', cycle stopping drawing = .ok ⟨0xD005, .draw⟩ s' ∧ drawing.StopAsked stopping s' ∧
      run stopping 5 drawing = .ok 1 (s'.setRunning false)) ∧
    (∃ t, Unstopped (cycle .quiet) drawing 1 t ∧
      (do
        let a ← run .quiet (1 : Nat)
        let b ← run .quiet (4 : Nat)
        return a + b) drawing = run .quiet (1 + 4 : Nat) drawing) ∧
    (∃ e t, cycle .quiet undecodable = .error e t ∧
      run .quiet 5 undecodable = .error e (t.setRunning true)) ∧
    Heedless (cycle stopping) ∧ Iterates (cycle stopping) (repeated (cycle stopping)) := by
  obtain ⟨hcycle, hstep⟩ := run_iterates_cycle
  obtain ⟨hstopping, hstops, -⟩ := hcycle stopping
  obtain ⟨hquiet, hnever, hfails⟩ := hcycle .quiet
  have hdraws : ∀ h, ∃ s', cycle h drawing = .ok ⟨0xD005, .draw⟩ s' := by
    have hnext : drawing.machine.Next ⟨0xD005, .draw⟩ :=
      Session.started_next .absent (by decide) (by decide) rfl
    have hfault : drawing.machine.fault? ⟨0xD005, .draw⟩ = none := by
      rw [drawing, Session.started_eq .absent (by decide)]
      rfl
    exact fun h => ⟨_, (Session.completes_of_next hnext (by decide) (by decide) hfault).cycle_eq⟩
  refine ⟨?_, ?_, ?_, cycle_heedless stopping, hstep (cycle_heedless stopping)⟩
  · obtain ⟨s', hs⟩ := hdraws stopping
    obtain ⟨executed, hc⟩ := completed_of_cycle hs
    obtain ⟨hframes, hshown⟩ := hc.left_of_draw rfl rfl
    have hmore : drawing.frames < s'.frames := by
      rw [hframes]
      exact Nat.lt_succ_self _
    have hasked : drawing.StopAsked stopping s' := .inr ⟨hmore, _, hshown, rfl⟩
    exact ⟨s', hs, hasked, (hstopping.eq_iff _ _ _).2
      (.inr ⟨1, by decide, .stopped .zero hs ((hstops hs).2 hasked)⟩)⟩
  · obtain ⟨s', hs⟩ := hdraws .quiet
    have hunasked : ¬ drawing.StopAsked .quiet s' := by
      rintro (⟨-, hbeep⟩ | ⟨-, frame, -, hframe⟩)
      · cases hbeep
      · cases hframe
    have hunstopped : stops (cycle .quiet) drawing = false :=
      Bool.eq_false_iff.2 fun hstopped => hunasked ((hnever hs).1 hstopped)
    have hone : Unstopped (cycle .quiet) drawing 1 s' := Unstopped.zero.succ hs hunstopped
    exact ⟨s', hone, hquiet.add hone 4⟩
  · have hcounter : undecodable.machine.counter ≠ 4095 := by
      rw [undecodable, Session.started_counter .absent (by decide)]
      decide
    have hdecode : decode undecodable.machine.word = .error (.unknownOpcode 0xFFFF) := by
      rw [undecodable, Session.started_word .absent (by decide) (by decide)]
      rfl
    have hs := (Halts.decode (h := .quiet) hcounter hdecode).cycle_eq
    have hrun := (hquiet.eq_iff undecodable 5 _).2 (.inr ⟨1, by decide, .halted .zero hs⟩)
    rw [hfails hs] at hrun
    exact ⟨_, _, hs, hrun⟩

end ChipEight
