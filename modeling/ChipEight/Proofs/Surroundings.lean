import ChipEight.Proofs.Cycle

/-! What the surroundings of a machine do to it during a cycle: the hooks, and those who answer it. -/

namespace ChipEight

open Actions

/-- The second machine is the first one after keys have been moved and a stop may have been asked
for. -/
def Machine.Touched (m m' : Machine) : Prop :=
  ∃ keypad running, m' = { m with keypad := keypad, running := running }

theorem Machine.Touched.refl (m : Machine) : m.Touched m :=
  ⟨m.keypad, m.running, rfl⟩

theorem Machine.Touched.trans {m m₁ m₂ : Machine} (h₁ : m.Touched m₁) (h₂ : m₁.Touched m₂) :
    m.Touched m₂ := by
  obtain ⟨keypad, running, rfl⟩ := h₁
  obtain ⟨keypad', running', rfl⟩ := h₂
  exact ⟨keypad', running', rfl⟩

namespace Session

variable (s : Session) (h : Host)

theorem grant_touched (r : Request) : s.machine.Touched (s.grant r).machine := by
  cases r with
  | stop => exact ⟨s.machine.keypad, false, rfl⟩
  | press name => exact ⟨s.machine.keypad.press name, s.machine.running, rfl⟩
  | release name => exact ⟨s.machine.keypad.release name, s.machine.running, rfl⟩

theorem grants_touched (rs : List Request) :
    s.machine.Touched (rs.foldl grant s).machine := by
  induction rs generalizing s with
  | nil => exact .refl _
  | cons r rs ih => exact (s.grant_touched r).trans (ih (s.grant r))

theorem accept_touched (r : Reply) : s.machine.Touched (s.accept r).machine := by
  unfold accept
  split
  · exact s.grants_touched r.requests
  · exact (s.print (.plain r.text)).grants_touched r.requests

theorem beep_touched : s.machine.Touched (s.beep h).machine := by
  unfold beep
  split
  · exact accept_touched _ _
  · exact .refl _

theorem beepIf_touched (c : Prop) [Decidable c] :
    s.machine.Touched (if c then s.beep h else s).machine := by
  split
  · exact s.beep_touched h
  · exact .refl _

theorem tickTimers_touched :
    Machine.Touched { s.machine with
        delay := s.machine.delay.tick
        sound := s.machine.sound.tick }
      (s.tickTimers h).machine := by
  obtain ⟨keypad, running, hm⟩ :=
    (s.onMachine Machine.tickDelay).beepIf_touched h (s.machine.sound.value = 1)
  exact ⟨keypad, running, congrArg Machine.tickSound hm⟩

theorem present_touched :
    Machine.Touched { s.machine with dirty := s.machine.dirty && h.renderer.isNone }
      (s.present h).machine := by
  unfold present
  cases hr : h.renderer with
  | none =>
    refine ⟨s.machine.keypad, s.machine.running, ?_⟩
    rw [Option.isNone_none, Bool.and_true]
  | some renderer =>
    rw [Option.isNone_some, Bool.and_false]
    dsimp only
    split
    · obtain ⟨keypad, running, hm⟩ := accept_touched
        { s with frames := s.frames + 1, shown := some s.machine.screen }
        (renderer s.frames s.machine.screen)
      refine ⟨keypad, running, ?_⟩
      rw [onMachine_machine, hm]
    · next hd =>
      refine ⟨s.machine.keypad, s.machine.running, ?_⟩
      rw [← Bool.not_eq_true _ |>.mp hd]

end Session

section Answers

variable {h : Host} {f : Form} {s s' : Session} {e : Halt}

theorem answerTo_of_ne (hrand : f ≠ .rand) (hkey : f ≠ .waitKey) :
    answerTo h f s = .ok 0 s := by
  cases f <;> first | rfl | contradiction

theorem leftBy_answerTo (h : Host) (f : Form) (s : Session) :
    ∃ keypad source keyboard asked polls, leftBy (answerTo h f) s = { s with
      machine := { s.machine with keypad := keypad }
      source := source
      keyboard := keyboard
      asked := asked
      polls := polls } := by
  by_cases hkey : f = .waitKey
  · subst hkey
    obtain ⟨machine, source, keyboard, asked, _, _, _, polls, _, _⟩ := s
    unfold answerTo leftBy SessionM.awaitKey
    cases source with
    | absent => exact ⟨machine.keypad, .absent, keyboard, asked, polls, rfl⟩
    | script names =>
      dsimp only
      cases (machine.keypad.search names).found <;>
        exact ⟨machine.keypad, _, keyboard, asked, _, rfl⟩
    | keyboard =>
      dsimp only
      cases (machine.keypad.await keyboard.queue).ended <;>
        exact ⟨_, .keyboard, _, asked, polls, rfl⟩
  · by_cases hrand : f = .rand
    · subst hrand
      exact ⟨s.machine.keypad, s.source, s.keyboard, _, s.polls, rfl⟩
    · exact ⟨s.machine.keypad, s.source, s.keyboard, s.asked, s.polls,
        leftBy_of_ok (answerTo_of_ne hrand hkey)⟩

theorem answerTo_touched (h : Host) (f : Form) (s : Session) :
    s.machine.Touched (leftBy (answerTo h f) s).machine := by
  obtain ⟨keypad, _, _, _, _, hleft⟩ := leftBy_answerTo h f s
  rw [hleft]
  exact ⟨keypad, s.machine.running, rfl⟩

theorem answerTo_error (ha : answerTo h f s = .error e s') :
    f = .waitKey ∧ SessionM.awaitKey s = .error e s' := by
  by_cases hkey : f = .waitKey
  · subst hkey
    exact ⟨rfl, ha⟩
  · by_cases hrand : f = .rand
    · subst hrand
      cases ha
    · rw [answerTo_of_ne hrand hkey] at ha
      cases ha

end Answers

namespace Session

variable {s s₁ : Session} {h : Host} {op : Opcode} {answer : Int}

theorem begun_machine (s : Session) (h : Host) (op : Opcode) :
    (s.begun h op).machine = ({ s.machine with dirty := false } : Machine).enter op := by
  rw [begun, onMachine_machine, announced_machine]
  rfl

theorem answered_touched (ha : answerTo h op.form (s.begun h op) = .ok answer s₁) :
    (({ s.machine with dirty := false } : Machine).enter op).Touched s₁.machine := by
  have htouched := answerTo_touched h op.form (s.begun h op)
  rwa [leftBy_of_ok ha, begun_machine] at htouched

theorem concluded_touched (s : Session) (h : Host) (op : Opcode) (answer : Int) :
    Machine.Touched { s.machine.effect op answer with
        delay := (s.machine.effect op answer).delay.tick
        sound := (s.machine.effect op answer).sound.tick
        dirty := (s.machine.effect op answer).dirty && h.renderer.isNone }
      (s.concluded h op answer).machine := by
  obtain ⟨keypad, running, hticked⟩ := ((s.affected op answer).trace h
    (op.traceLine (s.machine.effect op answer).current)).tickTimers_touched h
  refine Machine.Touched.trans ⟨keypad, running, ?_⟩ (present_touched _ h)
  rw [hticked, trace_machine]
  rfl

theorem cycle_machine {s' : Session} (hs : cycle h s = .ok op s') :
    ∃ answer m, (({ s.machine with dirty := false } : Machine).enter op).Touched m ∧
      Machine.Touched { m.effect op answer with
          delay := (m.effect op answer).delay.tick
          sound := (m.effect op answer).sound.tick
          dirty := (m.effect op answer).dirty && h.renderer.isNone }
        s'.machine := by
  obtain ⟨answer, s₁, hc, rfl⟩ := cycle_ok_iff.1 hs
  exact ⟨answer, s₁.machine, answered_touched hc.answered, s₁.concluded_touched h op answer⟩

end Session

end ChipEight
