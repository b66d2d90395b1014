import ChipEight.Proofs.Runs

/-! What the renderer is shown: all that is drawn, and nothing else. -/

namespace ChipEight

namespace Machine

variable (m : Machine) {op : Opcode} (answer : Int)

theorem effect_of_clearScreen (hop : op.form = .clearScreen) :
    m.effect op answer = { m with screen := .blank } := by
  simp only [effect, hop]

theorem effect_of_draw (hop : op.form = .draw) (hf : m.fault? op = none) :
    (m.effect op answer).dirty = true := by
  simp only [fault?, hop] at hf
  simp only [effect, hop, drawEffect, hf, Option.isNone_none, Bool.or_true]

end Machine

namespace Session.Completed

variable {h : Host} {s executed s' : Session} {op : Opcode}

theorem dirty_iff (hc : s.Completed h op executed s') :
    executed.machine.dirty = true ↔ op.form = .draw := by
  obtain ⟨answer, keypad, hf, hmachine⟩ := hc.effect_eq
  rw [hmachine]
  constructor
  · intro hdirty
    refine Decidable.of_not_not fun hne => ?_
    rw [(Machine.effect_footprint _ op answer).dirty_eq hne, Machine.enter_eq] at hdirty
    cases hdirty
  · exact fun hop => Machine.effect_of_draw _ answer hop hf

theorem screen_of_clear (hc : s.Completed h op executed s') (hop : op.form = .clearScreen) :
    executed.machine.screen = .blank := by
  obtain ⟨answer, keypad, -, hmachine⟩ := hc.effect_eq
  rw [hmachine, Machine.effect_of_clearScreen _ answer hop]

theorem screen_of_other (hc : s.Completed h op executed s') (hclear : op.form ≠ .clearScreen)
    (hdraw : op.form ≠ .draw) : executed.machine.screen = s.machine.screen := by
  obtain ⟨answer, keypad, -, hmachine⟩ := hc.effect_eq
  rw [hmachine, (Machine.effect_footprint _ op answer).screen_eq (by simp [hclear, hdraw]),
    Machine.enter_eq]

end Session.Completed

section Presented

variable {h : Host} {s executed s' : Session} {op : Opcode}

theorem tickTimers_screen (s : Session) (h : Host) :
    (s.tickTimers h).machine.screen = s.machine.screen ∧
      (s.tickTimers h).machine.dirty = s.machine.dirty := by
  obtain ⟨_, _, hmachine⟩ := s.tickTimers_touched h
  rw [hmachine]
  exact ⟨rfl, rfl⟩

theorem Session.Completed.left_screen (hc : s.Completed h op executed s') :
    s'.machine.screen = executed.machine.screen ∧
      s'.machine.dirty = (executed.machine.dirty && h.renderer.isNone) := by
  obtain ⟨hscreen, hdirty⟩ := tickTimers_screen executed h
  obtain ⟨_, _, hmachine⟩ := (executed.tickTimers h).present_touched h
  rw [hc.left_eq, hmachine, ← hscreen, ← hdirty]
  exact ⟨rfl, rfl⟩

theorem Session.Completed.ticked (hc : s.Completed h op executed s') :
    (executed.tickTimers h).frames = s.frames ∧ (executed.tickTimers h).shown = s.shown := by
  rw [Session.tickTimers_eq]
  exact ⟨hc.frames_eq, hc.shown_eq⟩

theorem Session.Completed.left_of_draw (hc : s.Completed h op executed s')
    (hrenderer : h.renderer.isSome = true) (hop : op.form = .draw) :
    s'.frames = s.frames + 1 ∧ s'.shown = some executed.machine.screen := by
  obtain ⟨hscreen, hdirty⟩ := tickTimers_screen executed h
  have hshown : (executed.tickTimers h).isShown h = true := by
    rw [Session.isShown, hdirty, hc.dirty_iff.2 hop, hrenderer, Bool.and_true]
  rw [hc.left_eq, Session.present_eq, hshown, hscreen]
  exact ⟨congrArg (· + 1) hc.ticked.1, rfl⟩

theorem Session.Completed.left_of_ne (hc : s.Completed h op executed s') (hop : op.form ≠ .draw) :
    s'.frames = s.frames ∧ s'.shown = s.shown := by
  have hshown : (executed.tickTimers h).isShown h = false := by
    rw [Session.isShown, (tickTimers_screen executed h).2,
      Bool.eq_false_iff.2 fun hdirty => hop (hc.dirty_iff.1 hdirty), Bool.false_and]
  rw [hc.left_eq, Session.present_eq, hshown]
  exact hc.ticked

end Presented

/-- What a cycle does about the renderer: it is called once and with what has been drawn, as soon as the
timers have ticked, or not at all. -/
structure Step.Presents (h : Host) (step : Step) : Prop where
  handed_over : step.op.form = .draw → ∃ executed,
    execute h step.op (step.before.announced h) = .ok () executed ∧
      (executed.tickTimers h).frames = step.before.frames ∧
      step.left = (executed.tickTimers h).present h ∧
      step.left.frames = step.before.frames + 1 ∧
      step.left.shown = some executed.machine.screen
  kept : step.op.form ≠ .draw →
    step.left.frames = step.before.frames ∧ step.left.shown = step.before.shown
  clean : step.left.machine.dirty = false

theorem Step.presents {h : Host} {step : Step} (hrenderer : h.renderer.isSome = true)
    (hcycle : cycle h step.before = .ok step.op step.left) : step.Presents h := by
  obtain ⟨executed, hc⟩ := completed_of_cycle hcycle
  refine ⟨fun hop => ?_, hc.left_of_ne, ?_⟩
  · obtain ⟨hframes, hshown⟩ := hc.left_of_draw hrenderer hop
    exact ⟨executed, hc.execute_eq, hc.ticked.1, hc.left_eq, hframes, hshown⟩
  · rw [hc.left_screen.2, Option.isNone_eq_false_iff.2 hrenderer, Bool.and_false]

def Step.draws (step : Step) : Bool := step.op.form = .draw

/-- The screen is as it was last shown, and blank if it has not been, but for having been cleared. -/
structure AsShown (cleared : Prop) (s : Session) : Prop where
  blank_of : cleared → s.machine.screen = .blank
  shown_of : ¬ cleared → s.machine.screen = s.shown.getD .blank

section AsShown

variable {h : Host} {s s' : Session} {op : Opcode} {cleared : Prop}

theorem AsShown.idled (hs : AsShown cleared s) (hidled : s.Idled s') : AsShown cleared s' := by
  obtain ⟨_, _, _, _, _, _, rfl⟩ := hidled
  exact ⟨hs.blank_of, hs.shown_of⟩

theorem AsShown.cycle (hs : AsShown cleared s) (hrenderer : h.renderer.isSome = true)
    (hcycle : ChipEight.cycle h s = .ok op s') :
    AsShown (op.form = .clearScreen ∨ cleared ∧ op.form ≠ .draw) s' := by
  obtain ⟨executed, hc⟩ := completed_of_cycle hcycle
  have hscreen := hc.left_screen.1
  -- to draw ends what was before, to clear the screen begins it, and nothing else touches it
  by_cases hdraw : op.form = .draw
  · have hshown := (hc.left_of_draw hrenderer hdraw).2
    refine ⟨?_, fun _ => by rw [hscreen, hshown, Option.getD_some]⟩
    rintro (hclear | ⟨-, hne⟩)
    · rw [hdraw] at hclear
      cases hclear
    · exact absurd hdraw hne
  · have hshown := (hc.left_of_ne hdraw).2
    by_cases hclear : op.form = .clearScreen
    · exact ⟨fun _ => hscreen.trans (hc.screen_of_clear hclear),
        fun hnot => absurd (.inl hclear) hnot⟩
    · rw [hc.screen_of_other hclear hdraw] at hscreen
      refine ⟨?_, fun hnot => ?_⟩
      · rintro (hclear' | ⟨hcleared, -⟩)
        · exact absurd hclear' hclear
        · exact hscreen.trans (hs.blank_of hcleared)
      · rw [hscreen, hshown]
        exact hs.shown_of fun hcleared => hnot (.inr ⟨hcleared, hdraw⟩)

theorem Run.frames {run : List Step} (hrun : Run h s run s')
    (hrenderer : h.renderer.isSome = true) : s'.frames = s.frames + run.countP Step.draws := by
  obtain ⟨t, hsteps, hlast⟩ := hrun
  rw [hlast.idled.uncalled.1]
  induction hsteps with
  | nil => rw [List.countP_nil, Nat.add_zero]
  | @cons s s₁ t step run hstep _ ih =>
    obtain ⟨hpaused, hcycle, rfl⟩ := hstep
    have hpresents := step.presents hrenderer hcycle
    have hbefore := hpaused.idled.uncalled.1
    by_cases hdraw : step.op.form = .draw
    · obtain ⟨_, -, -, -, hframes, -⟩ := hpresents.handed_over hdraw
      have hdraws : step.draws = true := decide_eq_true hdraw
      rw [ih hlast, List.countP_cons_of_pos hdraws]
      omega
    · have hdraws : ¬ step.draws = true := by simpa [Step.draws] using hdraw
      have hframes := (hpresents.kept hdraw).1
      rw [ih hlast, List.countP_cons_of_neg hdraws]
      omega

end AsShown

def drawing : Session :=
  .started .absent [0xD0, 0x05]

end ChipEight
