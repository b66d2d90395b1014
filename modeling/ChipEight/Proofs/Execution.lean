import ChipEight.Proofs.Chain
import ChipEight.Proofs.Keys
import ChipEight.Proofs.Started

/-! The execution of an instruction in its surroundings: who is asked, and what may be different
afterwards. -/

namespace ChipEight

open Actions

theorem Keypad.await_taken (k : Keypad) (events : List Event) :
    ∃ taken, events = taken ++ (k.await events).rest ∧
      (k.await events).keypad = k.applyAll taken := by
  induction events generalizing k with
  | nil => exact ⟨[], rfl, rfl⟩
  | cons e rest ih =>
    have happlied : ∀ taken, e.isQuit = false →
        (k.apply e).applyAll taken = k.applyAll (e :: taken) := by
      intro taken hq
      rw [applyAll, applyAll, List.foldl_cons, if_neg (Bool.eq_false_iff.1 hq)]
    obtain hq | ⟨code, hq, hcode⟩ | hpass := k.event_cases e
    · rw [k.await_of_quit hq]
      refine ⟨[e], rfl, ?_⟩
      rw [applyAll, List.foldl_cons, if_pos hq, List.foldl_nil]
    · rw [k.await_of_key hq hcode]
      exact ⟨[e], rfl, happlied [] hq⟩
    · obtain ⟨taken, hrest, hkeypad⟩ := ih (k.apply e)
      rw [k.await_of_passes hpass]
      exact ⟨e :: taken, congrArg (e :: ·) hrest, hkeypad.trans (happlied taken hpass.1)⟩

/-- The ways in which the host answers an instruction, with what they leave of the session. -/
inductive Answered (h : Host) (s : Session) : Form → Int → Session → Prop
  | unasked {f : Form} (hrand : f ≠ .rand) (hkey : f ≠ .waitKey) : Answered h s f 0 s
  | random : Answered h s .rand (h.random s.asked.size) { s with asked := s.asked.push (0, 255) }
  | script {names rest : List KeyName} {polls : Nat} {code : Int}
      (hsource : s.source = .script names) :
      Answered h s .waitKey code { s with source := .script rest, polls := polls }
  | keyboard {taken rest : List Event} {code : Int} (hsource : s.source = .keyboard)
      (hqueue : s.keyboard.queue = taken ++ rest) :
      Answered h s .waitKey code { s with
        machine := { s.machine with keypad := s.machine.keypad.applyAll taken }
        keyboard := { s.keyboard with queue := rest } }

section Execution

variable {h : Host} {op : Opcode} {s s₁ s' : Session} {answer : Int}

theorem Answered.machine_eq {f : Form} (ha : Answered h s f answer s₁) :
    ∃ keypad, (f ≠ .waitKey → keypad = s.machine.keypad) ∧
      s₁.machine = { s.machine with keypad := keypad } := by
  cases ha with
  | unasked | random | script => exact ⟨s.machine.keypad, fun _ => rfl, rfl⟩
  | keyboard => exact ⟨_, fun hne => absurd rfl hne, rfl⟩

theorem awaitKey_answered (ha : SessionM.awaitKey s = .ok answer s₁) :
    Answered h s .waitKey answer s₁ := by
  unfold SessionM.awaitKey at ha
  split at ha
  · cases ha
  · next hsource =>
    dsimp only at ha
    split at ha
    · cases ha
      exact .script hsource
    · cases ha
  · next hsource =>
    obtain ⟨taken, hqueue, hkeypad⟩ := s.machine.keypad.await_taken s.keyboard.queue
    dsimp only at ha
    rw [hkeypad] at ha
    split at ha
    · cases ha
      exact .keyboard hsource hqueue
    · cases ha
    · cases ha

theorem answerTo_answered {f : Form} (ha : answerTo h f s = .ok answer s₁) :
    Answered h s f answer s₁ := by
  by_cases hkey : f = .waitKey
  · subst hkey
    exact awaitKey_answered ha
  · by_cases hrand : f = .rand
    · subst hrand
      cases ha
      exact .random
    · rw [answerTo_of_ne hrand hkey] at ha
      cases ha
      exact .unasked hrand hkey

theorem execute_ok (hs : execute h op s = .ok () s') :
    ∃ answer s₁, Answered h (s.onMachine (·.enter op)) op.form answer s₁ ∧
      s₁.machine.fault? op = none ∧
      s' = (s₁.affected op answer).trace h
        (op.traceLine (s₁.machine.effect op answer).current) := by
  cases ha : answerTo h op.form (s.onMachine (·.enter op)) with
  | error e s₁ =>
    rw [execute_of_halt ha] at hs
    cases hs
  | ok answer s₁ =>
    cases hf : s₁.machine.fault? op with
    | some f =>
      rw [execute_of_fault ha hf] at hs
      cases hs
    | none =>
      rw [execute_of_none ha hf] at hs
      cases hs
      exact ⟨answer, s₁, answerTo_answered ha, hf, rfl⟩

theorem fault?_of_execute (hs : execute h op s = .ok () s') : s.machine.fault? op = none := by
  obtain ⟨answer, s₁, ha, hf, -⟩ := execute_ok hs
  obtain ⟨keypad, -, hmachine⟩ := ha.machine_eq
  rw [hmachine] at hf
  rw [← hf]
  exact (Machine.fault?_congr op (s.machine.enter_registers op) (s.machine.enter_index op)
    (s.machine.enter_stack op)).symm

theorem execute_unasked (h : Host) (hrand : op.form ≠ .rand) (hkey : op.form ≠ .waitKey)
    (hf : s.machine.fault? op = none) :
    ∃ s', execute h op s = .ok () s' ∧ s'.machine = (s.machine.enter op).effect op 0 ∧
      s' = { s with machine := s'.machine, printed := s'.printed } := by
  have hbegun : (s.machine.enter op).fault? op = none := by
    rw [← hf]
    exact Machine.fault?_congr op (s.machine.enter_registers op) (s.machine.enter_index op)
      (s.machine.enter_stack op)
  refine ⟨_, execute_of_none (answerTo_of_ne hrand hkey) hbegun, Session.trace_machine .., ?_⟩
  rw [Session.trace_eq]
  rfl

theorem execute_of_cycle (hs : cycle h s = .ok op s') :
    ∃ t, execute h op (s.announced h) = .ok () t ∧
      Machine.Touched { t.machine with
          delay := t.machine.delay.tick
          sound := t.machine.sound.tick
          dirty := t.machine.dirty && h.renderer.isNone }
        s'.machine := by
  obtain ⟨answer, s₁, hc, rfl⟩ := cycle_ok_iff.1 hs
  refine ⟨_, execute_of_none hc.answered hc.faultless, ?_⟩
  rw [Session.trace_machine]
  exact s₁.concluded_touched h op answer

end Execution

/-- What the execution of an instruction may change, in the machine and around it. -/
structure Session.Footprint (s : Session) (op : Opcode) (s' : Session) : Prop where
  machine : s.machine.Footprint op s'.machine
  keypad_moved : ∃ taken, s.keyboard.queue = taken ++ s'.keyboard.queue ∧
    s'.machine.keypad = s.machine.keypad.applyAll taken
  asked_eq : s'.asked = if op.form = .rand then s.asked.push (0, 255) else s.asked
  source_eq : op.form ≠ .waitKey → s'.source = s.source
  keyboard_eq : op.form ≠ .waitKey ∨ s.source ≠ .keyboard → s'.keyboard = s.keyboard
  polls_eq : op.form ≠ .waitKey → s'.polls = s.polls

section Footprint

variable {h : Host} {op : Opcode} {s s' : Session}

theorem execute_footprint (hs : execute h op s = .ok () s') : s.Footprint op s' := by
  obtain ⟨answer, s₁, ha, -, rfl⟩ := execute_ok hs
  generalize hop : op.form = f at ha
  have hmachine : ∀ keypad, (op.form ≠ .waitKey → keypad = s.machine.keypad) →
      s.machine.Footprint op
        (({ s.machine.enter op with keypad := keypad } : Machine).effect op answer) :=
    fun keypad hkeypad => .of_begun hkeypad (Machine.effect_footprint ..)
  have hkeypad := s.machine.enter_keypad op
  have hstill : ((s.machine.enter op).effect op answer).keypad = s.machine.keypad :=
    (Machine.effect_keypad ..).trans hkeypad
  rw [Session.trace_eq]
  cases ha with
  | unasked hrand hkey =>
    subst hop
    exact {
      machine := hmachine _ fun _ => hkeypad
      keypad_moved := ⟨[], rfl, hstill⟩
      asked_eq := (if_neg hrand).symm
      source_eq := fun _ => rfl
      keyboard_eq := fun _ => rfl
      polls_eq := fun _ => rfl }
  | random =>
    exact {
      machine := hmachine _ fun _ => hkeypad
      keypad_moved := ⟨[], rfl, hstill⟩
      asked_eq := (if_pos hop).symm
      source_eq := fun _ => rfl
      keyboard_eq := fun _ => rfl
      polls_eq := fun _ => rfl }
  | script hsource =>
    exact {
      machine := hmachine _ fun _ => hkeypad
      keypad_moved := ⟨[], rfl, hstill⟩
      asked_eq := (if_neg (by simp [hop])).symm
      source_eq := fun hne => absurd hop hne
      keyboard_eq := fun _ => rfl
      polls_eq := fun hne => absurd hop hne }
  | @keyboard taken rest _ hsource hqueue =>
    have hmoved : (s.machine.enter op).keypad.applyAll taken =
        s.machine.keypad.applyAll taken := by
      rw [hkeypad]
    exact {
      machine := hmachine _ fun hne => absurd hop hne
      keypad_moved := ⟨taken, hqueue, (Machine.effect_keypad ..).trans hmoved⟩
      asked_eq := (if_neg (by simp [hop])).symm
      source_eq := fun _ => rfl
      keyboard_eq := fun hne => hne.elim (absurd hop) (absurd hsource)
      polls_eq := fun _ => rfl }

theorem cycle_cell (hs : cycle h s = .ok op s') {a : Nat} (ha : ¬ s.machine.Stores op a) :
    s'.machine.memory.cell a = s.machine.memory.cell a := by
  obtain ⟨t, ht, _, _, hmachine⟩ := execute_of_cycle hs
  have hfootprint := (execute_footprint ht).machine
  rw [Session.announced_machine] at hfootprint
  rw [hmachine]
  exact hfootprint.cell_eq a ha

end Footprint

/-- A completed cycle, listed with the session before it and what was executed. -/
def CycleStep (s : Session) (step : Session × Opcode) (s' : Session) : Prop :=
  step.1 = s ∧ ∃ h, cycle h s = .ok step.2 s'

def CycleRun : Session → List (Session × Opcode) → Session → Prop :=
  Chain CycleStep

theorem CycleRun.stored {s s' : Session} {run : List (Session × Opcode)} (hrun : CycleRun s run s')
    {a : Nat} (ha : s'.machine.memory.cell a ≠ s.machine.memory.cell a) :
    ∃ step ∈ run, step.1.machine.Stores step.2 a := by
  refine Classical.byContradiction fun hnone => ha ?_
  refine hrun.view_eq (fun t => t.machine.memory.cell a) fun step hmem t t' hstep => ?_
  obtain ⟨rfl, h, hcycle⟩ := hstep
  exact cycle_cell hcycle fun hstores => hnone ⟨step, hmem, hstores⟩

/-- Every instruction keeps to its footprint, and so does a run of any length. -/
theorem changes_within_footprint :
    (∀ {h : Host} {op : Opcode} {s s' : Session},
      execute h op s = .ok () s' → s.Footprint op s') ∧
    ∀ {s s' : Session} {run : List (Session × Opcode)}, CycleRun s run s' →
      ∀ {a : Nat}, s'.machine.memory.cell a ≠ s.machine.memory.cell a →
        ∃ step ∈ run, step.1.machine.Stores step.2 a :=
  ⟨execute_footprint, fun hrun _ ha => hrun.stored ha⟩

def overwritingGlyph : Session :=
  .started .absent [0xF0, 0x33]

def glyphOverwrite : Opcode :=
  ⟨0xF033, .storeBcd⟩

theorem glyph_changed_within_footprint :
    ∃ t s', execute .quiet glyphOverwrite (overwritingGlyph.announced .quiet) = .ok () t ∧
      (overwritingGlyph.announced .quiet).Footprint glyphOverwrite t ∧
      CycleRun overwritingGlyph [(overwritingGlyph, glyphOverwrite)] s' ∧
      s'.machine.memory.cell 0 ≠ overwritingGlyph.machine.memory.cell 0 ∧
      ∃ step ∈ [(overwritingGlyph, glyphOverwrite)], step.1.machine.Stores step.2 0 := by
  have hnext : overwritingGlyph.machine.Next glyphOverwrite :=
    Session.started_next .absent (by decide) (by decide) rfl
  have hdone := Session.completes_of_next (h := .quiet) hnext nofun nofun rfl
  have hexecute := execute_of_none hdone.answered hdone.faultless
  have hrun : CycleRun overwritingGlyph [(overwritingGlyph, glyphOverwrite)] _ :=
    .single ⟨rfl, .quiet, hdone.cycle_eq⟩
  have hbefore : overwritingGlyph.machine.memory.cell 0 = 0xF0 := by
    rw [overwritingGlyph, Session.started_memory .absent (by decide), if_pos (by decide)]
    rfl
  have hafter : ((overwritingGlyph.begun .quiet glyphOverwrite).concluded .quiet
      glyphOverwrite 0).machine.memory.cell 0 = 0 := by
    have hcell : ∀ memory : Memory, (memory.overwrite 0 (decimalDigits 0)).cell 0 = 0 := by
      intro memory
      rw [Memory.cell_overwrite]
      rfl
    obtain ⟨_, _, hmachine⟩ := (overwritingGlyph.begun .quiet glyphOverwrite).concluded_touched
      .quiet glyphOverwrite 0
    rw [hmachine]
    exact hcell (overwritingGlyph.begun .quiet glyphOverwrite).machine.memory
  obtain ⟨hfootprint, hstored⟩ := changes_within_footprint
  have hne : _ ≠ _ := fun h => absurd (hafter.symm.trans (h.trans hbefore)) (by decide)
  exact ⟨_, _, hexecute, hfootprint hexecute, hrun, hne, hstored hrun hne⟩

end ChipEight
