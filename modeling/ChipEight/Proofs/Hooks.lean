import ChipEight.Proofs.Execution

/-! The bookkeeping of the hooks: when they are called, with what, and what they leave alone. -/

namespace ChipEight

namespace Session

variable (s : Session) (h : Host)

theorem grants_eq (rs : List Request) :
    rs.foldl grant s = { s with machine := (rs.foldl grant s).machine } := by
  induction rs generalizing s with
  | nil => rfl
  | cons r rs ih =>
    rw [List.foldl_cons, ih (s.grant r)]
    cases r <;> rfl

theorem accept_eq (r : Reply) :
    s.accept r =
      { s with machine := (s.accept r).machine, printed := (s.accept r).printed } := by
  unfold accept
  split
  · rw [grants_eq]
  · rw [grants_eq]
    rfl

theorem beep_eq :
    s.beep h =
      { s with
        machine := (s.beep h).machine
        printed := (s.beep h).printed
        beeps := s.beeps + if h.beeper.isSome then 1 else 0 } := by
  unfold beep
  cases h.beeper with
  | none => rfl
  | some beeper =>
    dsimp only
    rw [accept_eq]
    rfl

def rings : Nat :=
  if s.machine.sound.value = 1 ∧ h.beeper.isSome then 1 else 0

theorem tickTimers_eq :
    s.tickTimers h =
      { s with
        machine := (s.tickTimers h).machine
        printed := (s.tickTimers h).printed
        beeps := s.beeps + s.rings h } := by
  have hstill : (s.onMachine Machine.tickDelay).machine.sound = s.machine.sound := rfl
  unfold tickTimers rings
  dsimp only
  rw [hstill]
  by_cases hsound : s.machine.sound.value = 1
  · simp only [hsound, true_and, if_true]
    rw [beep_eq]
    rfl
  · simp only [hsound, false_and, if_false]
    rfl

@[simp] theorem tickTimers_source : (s.tickTimers h).source = s.source := by
  rw [tickTimers_eq]

@[simp] theorem tickTimers_keyboard : (s.tickTimers h).keyboard = s.keyboard := by
  rw [tickTimers_eq]

def isShown : Bool :=
  s.machine.dirty && h.renderer.isSome

theorem present_eq :
    s.present h =
      { s with
        machine := (s.present h).machine
        printed := (s.present h).printed
        frames := s.frames + if s.isShown h then 1 else 0
        shown := if s.isShown h then some s.machine.screen else s.shown } := by
  unfold present isShown
  cases h.renderer with
  | none => simp
  | some renderer =>
    dsimp only
    cases hdirty : s.machine.dirty with
    | false => simp
    | true =>
      rw [if_pos rfl, accept_eq]
      rfl

@[simp] theorem present_source : (s.present h).source = s.source := by
  rw [present_eq]

@[simp] theorem present_keyboard : (s.present h).keyboard = s.keyboard := by
  rw [present_eq]

end Session

end ChipEight
