import ChipEight.Proofs.Commuting

/-! The loop of a run, for any step that pays no heed to whether the machine is running: it takes one step
after the other up to the limit, the first step that stops the machine, or the first one that fails. -/

namespace ChipEight

open Actions

def repeatFor (step : SessionM Opcode) : (limit count : Nat) → SessionM Nat
  | 0, count => pure count
  | limit + 1, count => do
    if (← get).machine.running then
      let _ ← step
      repeatFor step limit (count + 1)
    else return count

def repeated (step : SessionM Opcode) (limit : Int) : SessionM Nat := do
  modify (·.setRunning true)
  let count ← repeatFor step limit.toNat 0
  modify (·.setRunning false)
  return count

theorem run_eq_repeated (h : Host) : run h = repeated (cycle h) := by
  have hfor : ∀ limit count, runFor h limit count = repeatFor (cycle h) limit count := by
    intro limit
    induction limit with
    | zero => exact fun _ => rfl
    | succ limit ih =>
      intro count
      unfold runFor repeatFor
      rw [ih]
  funext limit
  unfold run repeated
  rw [hfor]
  rfl

/-- A step that does the same whether the machine is running or not, and starts none that is not. -/
structure Heedless (step : SessionM Opcode) : Prop where
  commutes : Commutes (Session.setRunning · false) step step
  stays : Keeps (fun s => s.machine.running = false) step

def stops (step : SessionM Opcode) (s : Session) : Bool :=
  !(leftBy step (s.setRunning true)).machine.running

inductive Unstopped (step : SessionM Opcode) (s : Session) : Nat → Session → Prop
  | zero : Unstopped step s 0 s
  | succ {k : Nat} {t t' : Session} {op : Opcode} (hsteps : Unstopped step s k t)
      (hstep : step t = .ok op t') (hstops : stops step t = false) : Unstopped step s (k + 1) t'

/-- The step in which a run ends before its limit, be it completed or not. -/
inductive Breaks (step : SessionM Opcode) (s : Session) : Nat → EStateM.Result Halt Session Nat → Prop
  | stopped {k : Nat} {t t' : Session} {op : Opcode} (hsteps : Unstopped step s k t)
      (hstep : step t = .ok op t') (hstops : stops step t = true) :
      Breaks step s (k + 1) (.ok (k + 1) (t'.setRunning false))
  | halted {k : Nat} {t t' : Session} {e : Halt} (hsteps : Unstopped step s k t)
      (hstep : step t = .error e t') :
      Breaks step s (k + 1) (.error e (t'.setRunning !stops step t))

def RunsTo (step : SessionM Opcode) (s : Session) (limit : Nat)
    (r : EStateM.Result Halt Session Nat) : Prop :=
  (∃ t, Unstopped step s limit t ∧ r = .ok limit (t.setRunning false)) ∨
    ∃ k ≤ limit, Breaks step s k r

theorem Session.setRunning_setRunning (s : Session) (b b' : Bool) :
    (s.setRunning b).setRunning b' = s.setRunning b' := rfl

namespace Heedless

variable {step : SessionM Opcode} (hstep : Heedless step)
include hstep

theorem step_running (s : Session) :
    step (s.setRunning true) = leaving (Session.setRunning · !stops step s) (step s) := by
  have hoff : step (s.setRunning false) = leaving (Session.setRunning · false) (step s) :=
    hstep.commutes s
  have hon : step (s.setRunning false) =
      leaving (Session.setRunning · false) (step (s.setRunning true)) :=
    hstep.commutes (s.setRunning true)
  have hback : ∀ {t t' : Session}, t'.setRunning false = t.setRunning false →
      t' = t.setRunning t'.machine.running := by
    intro t t' ht
    rw [← Session.setRunning_setRunning t false, ← ht]
    rfl
  -- With the machine off both come to the same, so that they differ in nothing but whether it is on.
  have hsame := hon.symm.trans hoff
  unfold stops leftBy
  rw [Bool.not_not]
  generalize step (s.setRunning true) = r' at hsame
  generalize step s = r at hsame
  cases r' with
  | ok op' t' =>
    cases r with
    | ok op t =>
      injection hsame with hop ht
      rw [leaving, hop, ← hback ht]
    | error e t => cases hsame
  | error e' t' =>
    cases r with
    | ok op t => cases hsame
    | error e t =>
      injection hsame with he ht
      rw [leaving, he, ← hback ht]

theorem repeatFor_of_ok {s t : Session} {op : Opcode} (hs : step s = .ok op t) (limit count : Nat) :
    repeatFor step (limit + 1) count (s.setRunning true) =
      repeatFor step limit (count + 1) (t.setRunning !stops step s) := by
  have hrunning : (s.setRunning true).machine.running = true := rfl
  rw [repeatFor, bind_apply, get_apply, proceed_ok, if_pos hrunning, bind_apply,
    hstep.step_running, hs]
  rfl

theorem repeatFor_of_error {s t : Session} {e : Halt} (hs : step s = .error e t)
    (limit count : Nat) :
    repeatFor step (limit + 1) count (s.setRunning true) = .error e (t.setRunning !stops step s) := by
  have hrunning : (s.setRunning true).machine.running = true := rfl
  rw [repeatFor, bind_apply, get_apply, proceed_ok, if_pos hrunning, bind_apply,
    hstep.step_running, hs]
  rfl

omit hstep in
theorem repeatFor_of_stopped {s : Session} (hs : s.machine.running = false) (limit count : Nat) :
    repeatFor step limit count s = .ok count s := by
  cases limit with
  | zero => rfl
  | succ limit =>
    rw [repeatFor, bind_apply, get_apply, proceed_ok, hs]
    rfl

theorem repeatFor_of_unstopped {s t : Session} {k : Nat} (hsteps : Unstopped step s k t)
    (limit : Nat) :
    repeatFor step (k + limit) 0 (s.setRunning true) =
      repeatFor step limit k (t.setRunning true) := by
  -- On the steps from the last one back: the run comes from their beginning, so the limit varies.
  induction hsteps generalizing limit with
  | zero => rw [Nat.zero_add]
  | succ hsteps hs hstops ih =>
    rw [Nat.add_right_comm, Nat.add_assoc, ih, hstep.repeatFor_of_ok hs, hstops]
    rfl

end Heedless

namespace Unstopped

variable {step : SessionM Opcode} {s t t' : Session} {k n : Nat}

theorem append (hsteps : Unstopped step s k t) (hmore : Unstopped step t n t') :
    Unstopped step s (k + n) t' := by
  induction hmore with
  | zero => exact hsteps
  | succ _ hs hstops ih => exact ih.succ hs hstops

theorem or_breaks (step : SessionM Opcode) (s : Session) (limit : Nat) :
    (∃ t, Unstopped step s limit t) ∨ ∃ k ≤ limit, ∃ r, Breaks step s k r := by
  induction limit with
  | zero => exact .inl ⟨s, .zero⟩
  | succ limit ih =>
    rcases ih with ⟨t, hsteps⟩ | ⟨k, hk, r, hbreaks⟩
    · cases hs : step t with
      | error e t' => exact .inr ⟨limit + 1, Nat.le_refl _, _, .halted hsteps hs⟩
      | ok op t' =>
        cases hstops : stops step t with
        | true => exact .inr ⟨limit + 1, Nat.le_refl _, _, .stopped hsteps hs hstops⟩
        | false => exact .inl ⟨t', hsteps.succ hs hstops⟩
    · exact .inr ⟨k, Nat.le_succ_of_le hk, r, hbreaks⟩

end Unstopped

section Repeated

variable {step : SessionM Opcode} {s t : Session}

theorem repeated_apply (step : SessionM Opcode) (limit : Int) (s : Session) :
    repeated step limit s =
      proceed (repeatFor step limit.toNat 0 (s.setRunning true)) fun count =>
        modify (·.setRunning false) >>= fun _ => pure count := rfl

theorem repeated_setRunning (step : SessionM Opcode) (limit : Int) (s : Session) (b : Bool) :
    repeated step limit (s.setRunning b) = repeated step limit s := by
  rw [repeated_apply, repeated_apply, Session.setRunning_setRunning]

theorem repeated_of_unstopped (hstep : Heedless step) {n : Nat} (hsteps : Unstopped step s n t) :
    repeated step n s = .ok n (t.setRunning false) := by
  rw [repeated_apply, Int.toNat_natCast, ← Nat.add_zero n, hstep.repeatFor_of_unstopped hsteps]
  rfl

theorem repeated_of_breaks (hstep : Heedless step) {k n : Nat} {r : EStateM.Result Halt Session Nat}
    (hbreaks : Breaks step s k r) (hk : k ≤ n) : repeated step n s = r := by
  obtain ⟨m, rfl⟩ := Nat.exists_eq_add_of_le hk
  rw [repeated_apply, Int.toNat_natCast]
  cases hbreaks with
  | stopped hsteps hs hstops =>
    rw [Nat.add_right_comm, Nat.add_assoc, hstep.repeatFor_of_unstopped hsteps,
      hstep.repeatFor_of_ok hs, hstops, Heedless.repeatFor_of_stopped rfl]
    rfl
  | halted hsteps hs =>
    rw [Nat.add_right_comm, Nat.add_assoc, hstep.repeatFor_of_unstopped hsteps,
      hstep.repeatFor_of_error hs, proceed_error]

theorem repeated_eq_iff (hstep : Heedless step) (s : Session) (limit : Int)
    (r : EStateM.Result Halt Session Nat) :
    repeated step limit s = r ↔ RunsTo step s limit.toNat r := by
  have hlimit : repeated step limit s = repeated step limit.toNat s := by
    rw [repeated_apply, repeated_apply, Int.toNat_natCast]
  rw [hlimit]
  constructor
  · rintro rfl
    rcases Unstopped.or_breaks step s limit.toNat with ⟨t, hsteps⟩ | ⟨k, hk, r, hbreaks⟩
    · exact .inl ⟨t, hsteps, repeated_of_unstopped hstep hsteps⟩
    · rw [repeated_of_breaks hstep hbreaks hk]
      exact .inr ⟨k, hk, hbreaks⟩
  · rintro (⟨t, hsteps, rfl⟩ | ⟨k, hk, hbreaks⟩)
    · exact repeated_of_unstopped hstep hsteps
    · exact repeated_of_breaks hstep hbreaks hk

theorem repeated_add (hstep : Heedless step) {m : Nat} (hsteps : Unstopped step s m t) (n : Nat) :
    (do
      let a ← repeated step m
      let b ← repeated step n
      return a + b) s = repeated step (m + n : Nat) s := by
  rw [bind_apply, repeated_of_unstopped hstep hsteps, proceed_ok, bind_apply, repeated_setRunning]
  rcases Unstopped.or_breaks step t n with ⟨t', hmore⟩ | ⟨k, hk, r, hbreaks⟩
  · rw [repeated_of_unstopped hstep hmore, repeated_of_unstopped hstep (hsteps.append hmore)]
    rfl
  · rw [repeated_of_breaks hstep hbreaks hk]
    have hk' : m + k ≤ m + n := Nat.add_le_add_left hk m
    cases hbreaks with
    | stopped hmore hs hstops =>
      have hall := Breaks.stopped (hsteps.append hmore) hs hstops
      rw [repeated_of_breaks hstep hall hk']
      rfl
    | halted hmore hs =>
      have hall := Breaks.halted (hsteps.append hmore) hs
      rw [repeated_of_breaks hstep hall hk', proceed_error]

theorem breaks_iff_eventually (hstep : Heedless step) (s : Session)
    (r : EStateM.Result Halt Session Nat) :
    (∃ k, Breaks step s k r) ↔ ∃ bound : Nat, ∀ limit : Nat, bound ≤ limit →
      repeated step limit s = r := by
  constructor
  · rintro ⟨k, hbreaks⟩
    exact ⟨k, fun limit hk => repeated_of_breaks hstep hbreaks hk⟩
  · rintro ⟨bound, hbound⟩
    have hlast := (repeated_eq_iff hstep s bound r).1 (hbound bound (Nat.le_refl _))
    have hnext := (repeated_eq_iff hstep s (bound + 1 : Nat) r).1 (hbound _ (Nat.le_succ _))
    rw [Int.toNat_natCast] at hlast hnext
    rcases hlast with ⟨t, _, hr⟩ | ⟨k, _, hbreaks⟩
    · rcases hnext with ⟨t', _, hr'⟩ | ⟨k, _, hbreaks⟩
      · rw [hr] at hr'
        injection hr' with hcount
        exact absurd hcount (Nat.ne_of_lt (Nat.lt_succ_self bound))
      · exact ⟨k, hbreaks⟩
    · exact ⟨k, hbreaks⟩

end Repeated

/-- How a run is made of steps. It comes to what the steps come to one after the other, whether or not
the machine was stopped before; runs may be taken together as long as nothing stops the machine; and a run
without a limit ends as the limited ones do from some limit on. -/
structure Iterates (step : SessionM Opcode) (run : Int → SessionM Nat) : Prop where
  eq_iff : ∀ s limit r, run limit s = r ↔ RunsTo step s limit.toNat r
  after_stop : ∀ limit s, (stop >>= fun _ => run limit) s = run limit s
  add : ∀ {s t : Session} {m : Nat}, Unstopped step s m t → ∀ n : Nat,
    (do
      let a ← run m
      let b ← run n
      return a + b) s = run (m + n : Nat) s
  breaks_iff : ∀ s r, (∃ k, Breaks step s k r) ↔
    ∃ bound : Nat, ∀ limit : Nat, bound ≤ limit → run limit s = r

theorem Heedless.iterates {step : SessionM Opcode} (hstep : Heedless step) :
    Iterates step (repeated step) where
  eq_iff := repeated_eq_iff hstep
  after_stop limit s := repeated_setRunning step limit s false
  add := repeated_add hstep
  breaks_iff := breaks_iff_eventually hstep

end ChipEight
