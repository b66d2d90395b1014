import ChipEight.Proofs.Runs

/-! How the timers count down in the course of a run, and when it beeps. -/

namespace ChipEight

theorem Timer.tick_toNat (t : Timer) : t.tick.value.toNat = t.value.toNat - 1 := by
  unfold tick isActive
  by_cases hzero : t.value = 0
  · simp [hzero]
  · have hpos : t.value.toNat ≠ 0 := fun hnat => hzero (BitVec.eq_of_toNat_eq hnat)
    have hone : (1 : Byte) ≤ t.value := by
      rw [BitVec.le_def]
      exact Nat.one_le_iff_ne_zero.2 hpos
    rw [if_pos (by simpa using hzero), BitVec.toNat_sub_of_le hone]
    rfl

structure TimerOf (timer : Machine → Timer) (form : Form) : Prop where
  set_eq : ∀ (m : Machine) {op : Opcode} (answer : Int), op.form = form →
    timer (m.effect op answer) = ⟨m.v op.x⟩
  kept : ∀ (m : Machine) {op : Opcode} (answer : Int), op.form ≠ form →
    timer (m.effect op answer) = timer m
  ticked : ∀ m : Machine,
    timer { m with delay := m.delay.tick, sound := m.sound.tick } = (timer m).tick
  apart : ∀ (m : Machine) (memory : Memory) (counter current : Address) (keypad : Keypad)
    (dirty running : Bool), timer { m with
      memory := memory, counter := counter, current := current, keypad := keypad, dirty := dirty,
      running := running } = timer m

theorem timerOf_sound : TimerOf Machine.sound .setSound where
  set_eq m op answer hop := by simp only [Machine.effect, hop]
  kept m op answer hop := (m.effect_footprint op answer).sound_eq hop
  ticked m := rfl
  apart m _ _ _ _ _ _ := rfl

/-- What a timer counts down from in a cycle: what it is set to, or what it showed before. -/
def Step.countsFrom (step : Step) (timer : Machine → Timer) (form : Form) : Nat :=
  if step.op.form = form then (step.before.machine.v step.op.x).toNat
  else (timer step.before.machine).value.toNat

section Timer

variable {timer : Machine → Timer} {form : Form} (htimer : TimerOf timer form) {h : Host}
include htimer

theorem TimerOf.touched {m m' : Machine} (hm : m.Touched m') : timer m' = timer m := by
  obtain ⟨keypad, running, rfl⟩ := hm
  exact htimer.apart m m.memory m.counter m.current keypad m.dirty running

theorem TimerOf.begun (m : Machine) (op : Opcode) (keypad : Keypad) :
    timer { ({ m with dirty := false } : Machine).enter op with keypad := keypad } = timer m := by
  rw [Machine.enter_eq]
  exact htimer.apart m m.memory _ m.counter keypad false m.running

theorem TimerOf.idled {s s' : Session} (hidled : s.Idled s') :
    timer s'.machine = timer s.machine := by
  obtain ⟨memory, counter, keypad, running, _, _, rfl⟩ := hidled
  exact htimer.apart s.machine memory counter s.machine.current keypad s.machine.dirty running

theorem TimerOf.marked (m : Machine) (dirty : Bool) : timer { m with dirty := dirty } = timer m :=
  htimer.apart m m.memory m.counter m.current m.keypad dirty m.running

theorem TimerOf.concluded (s : Session) (h : Host) :
    timer ((s.tickTimers h).present h).machine = (timer s.machine).tick := by
  rw [htimer.touched ((s.tickTimers h).present_touched h), htimer.marked,
    htimer.touched (s.tickTimers_touched h), htimer.ticked]

theorem TimerOf.executed {step : Step} {executed : Session}
    (hc : step.before.Completed h step.op executed step.left) :
    (timer executed.machine).value.toNat = step.countsFrom timer form := by
  obtain ⟨answer, keypad, -, hmachine⟩ := hc.effect_eq
  rw [hmachine, Step.countsFrom]
  split
  · next hop =>
    rw [htimer.set_eq _ answer hop, Machine.v, Machine.enter_registers]
    rfl
  · next hop => rw [htimer.kept _ answer hop, htimer.begun]

theorem TimerOf.cycle (step : Step) (hcycle : cycle h step.before = .ok step.op step.left) :
    (timer step.left.machine).value.toNat = step.countsFrom timer form - 1 := by
  obtain ⟨executed, hc⟩ := completed_of_cycle hcycle
  rw [hc.left_eq, htimer.concluded, Timer.tick_toNat, htimer.executed hc]

theorem TimerOf.run {s s' : Session} {run : List Step} (hrun : Run h s run s')
    (hnone : ∀ step ∈ run, step.op.form ≠ form) :
    (timer s'.machine).value.toNat = (timer s.machine).value.toNat - run.length := by
  obtain ⟨t, hsteps, hlast⟩ := hrun
  rw [htimer.idled hlast.idled]
  induction hsteps with
  | nil => rw [List.length_nil, Nat.sub_zero]
  | @cons s s₁ t step run hstep _ ih =>
    obtain ⟨hpaused, hcycle, rfl⟩ := hstep
    rw [List.forall_mem_cons] at hnone
    have hticked := htimer.cycle step hcycle
    rw [Step.countsFrom, if_neg hnone.1, htimer.idled hpaused.idled] at hticked
    rw [ih hnone.2 hlast, hticked, List.length_cons]
    omega

end Timer

section Beeping

variable {h : Host} {s s' : Session} {run : List Step}

theorem Step.left_beeps (step : Step) (hcycle : cycle h step.before = .ok step.op step.left) :
    step.left.beeps = step.before.beeps +
      if h.beeper.isSome ∧ step.countsFrom Machine.sound .setSound = 1 then 1 else 0 := by
  obtain ⟨executed, hc⟩ := completed_of_cycle hcycle
  have hone : executed.machine.sound.value = 1 ↔ step.countsFrom Machine.sound .setSound = 1 := by
    rw [← timerOf_sound.executed hc]
    exact ⟨congrArg BitVec.toNat, fun hnat => BitVec.eq_of_toNat_eq hnat⟩
  rw [hc.left_eq, Session.present_eq, Session.tickTimers_eq, ← hc.beeps_eq]
  simp only [Session.rings, hone, and_comm]

theorem Run.beeps (hrun : Run h s run s') (hnone : ∀ step ∈ run, step.op.form ≠ .setSound) :
    s'.beeps = s.beeps +
      if h.beeper.isSome ∧ 1 ≤ s.machine.sound.value.toNat ∧
        s.machine.sound.value.toNat ≤ run.length then 1 else 0 := by
  obtain ⟨t, hsteps, hlast⟩ := hrun
  rw [hlast.idled.uncalled.2]
  induction hsteps with
  | nil s =>
    have hlate : ¬ (h.beeper.isSome ∧ 1 ≤ s.machine.sound.value.toNat ∧
        s.machine.sound.value.toNat ≤ 0) := by omega
    rw [List.length_nil, if_neg hlate, Nat.add_zero]
  | @cons s s₁ t step run hstep _ ih =>
    obtain ⟨hpaused, hcycle, rfl⟩ := hstep
    rw [List.forall_mem_cons] at hnone
    have hfrom : step.countsFrom Machine.sound .setSound = s.machine.sound.value.toNat := by
      rw [Step.countsFrom, if_neg hnone.1, timerOf_sound.idled hpaused.idled]
    have hticked := timerOf_sound.cycle step hcycle
    have hbeeped := step.left_beeps hcycle
    rw [hfrom] at hticked hbeeped
    rw [hpaused.idled.uncalled.2] at hbeeped
    rw [ih hnone.2 hlast, hticked, hbeeped, List.length_cons]
    -- it beeps in the first cycle if the timer was at one, and in a later one if it was above
    cases h.beeper.isSome with
    | false => simp
    | true =>
      simp only [true_and]
      split <;> split <;> split <;> omega

end Beeping

section CountsDown

variable {h : Host} {s s' : Session} {run before mid after : List Step}

end CountsDown

def ringing : Host :=
  { Host.quiet with beeper := some fun _ => ⟨"", []⟩ }

end ChipEight
