import ChipEight.Proofs.Alongside
import ChipEight.Proofs.Timing

/-! Runs of two machines that are alike but for what no instruction reads, with the same key events between
the cycles. No program can tell one run from the other. -/

namespace ChipEight

open Actions

/-- The calls of a run: the cycles, and the events about keys between them. -/
def Call.plays : Call → Bool
  | cycle | press _ | release _ | post _ | pump | poll => true
  | _ => false

def Host.makes (h : Host) (calls : List Call) : List (Host × Call) :=
  calls.map fun c => (h, c)

namespace Session

def moved (s : Session) (keypad : Keypad) (keyboard : Keyboard) : Session :=
  { s with machine := { s.machine with keypad := keypad }, keyboard := keyboard }

variable {h h' : Host} {s t s' t' : Session}

theorem Alongside.refl (hagrees : s.machine.Agrees t.machine) (hsame : SameSurroundings h s h' t) :
    Alongside s t s t :=
  ⟨hagrees, hsame.source_eq, hsame.keyboard_eq, _, .refl s, .refl t⟩

theorem moved_alongside (hagrees : s.machine.Agrees t.machine)
    (hsame : SameSurroundings h s h' t) (keypad : Keypad) (keyboard : Keyboard) :
    Alongside s t (s.moved keypad keyboard) (t.moved keypad keyboard) := by
  have hs := (Exchanges.refl s).regardless { s.machine with keypad := keypad } s.source keyboard
  have ht := (Exchanges.refl t).regardless { t.machine with keypad := keypad } t.source keyboard
  exact ⟨{ hagrees with keypad_eq := rfl }, hsame.source_eq, rfl, _, hs, ht⟩

theorem Alongside.surroundings (hst : Alongside s t s' t') (hsame : SameSurroundings h s h' t) :
    SameSurroundings h s' h' t' := by
  obtain ⟨x, hs, ht⟩ := hst.exchanges
  refine { hsame with
    source_eq := hst.source_eq
    keyboard_eq := hst.keyboard_eq
    random_eq := fun n => ?_
    renderer_requests := fun renderer renderer' hr hr' n frame => ?_ }
  · rw [hs.asked_size, ht.asked_size, Nat.add_assoc, Nat.add_assoc]
    exact hsame.random_eq _
  · rw [hs.frames_eq, ht.frames_eq, Nat.add_assoc, Nat.add_assoc]
    exact hsame.renderer_requests renderer renderer' hr hr' _ frame

section Calls

variable (hagrees : s.machine.Agrees t.machine) (hsame : SameSurroundings h s h' t)
include hagrees hsame

theorem pump_paired : Paired (Alongside s t) (pump s) (pump t) := by
  rw [pump_apply, pump_apply, hagrees.keypad_eq, hsame.keyboard_eq]
  exact .ok (moved_alongside hagrees hsame _ _)

theorem poll_paired : Paired (Alongside s t) (poll s) (poll t) := by
  have hkeyboard := hsame.keyboard_eq
  cases hqueue : s.keyboard.queue with
  | nil =>
    rw [poll_of_nil hqueue, poll_of_nil (hkeyboard ▸ hqueue)]
    exact .ok (.refl hagrees hsame)
  | cons e rest =>
    have hqueue' : t.keyboard.queue = e :: rest := by rw [hkeyboard, hqueue]
    have htaken : ∀ keypad,
        Alongside s t (s.withKeys keypad rest) (t.withKeys keypad rest) := by
      intro keypad
      have hmoved := moved_alongside hagrees hsame keypad { s.keyboard with queue := rest }
      have ht : t.withKeys keypad rest = t.moved keypad { s.keyboard with queue := rest } := by
        rw [← hkeyboard]
        rfl
      rw [ht]
      exact hmoved
    cases hquit : e.isQuit with
    | true =>
      rw [poll_of_quit hqueue hquit, poll_of_quit hqueue' hquit, hagrees.keypad_eq]
      exact .error (htaken _)
    | false =>
      rw [poll_of_unquit hqueue hquit, poll_of_unquit hqueue' hquit, hagrees.keypad_eq]
      exact .ok (htaken _)

theorem move_paired (name : KeyName) (down : Bool) :
    Paired (Alongside s t)
      (.ok (Answer.code ((s.machine.keypad.move name down).code? name))
        (s.moved (s.machine.keypad.move name down) s.keyboard))
      (.ok (Answer.code ((t.machine.keypad.move name down).code? name))
        (t.moved (t.machine.keypad.move name down) t.keyboard)) := by
  rw [hagrees.keypad_eq, hsame.keyboard_eq]
  exact .ok (moved_alongside hagrees hsame _ _)

theorem post_paired (events : List Event) : Paired (Alongside s t) (post events s) (post events t) := by
  have hposted : ∀ u : Session, post events u =
      .ok () (u.moved u.machine.keypad (u.keyboard.post events)) := fun _ => rfl
  rw [hposted, hposted, hagrees.keypad_eq, hsame.keyboard_eq]
  exact .ok (moved_alongside hagrees hsame _ _)

theorem respond_paired {c : Call} (hc : c.plays = true) :
    Paired (Alongside s t) (c.respond h s) (c.respond h' t) := by
  cases c with
  | cycle => exact (cycle_paired hagrees hsame).map Answer.opcode
  | press name => exact move_paired hagrees hsame name true
  | release name => exact move_paired hagrees hsame name false
  | post events => exact (post_paired hagrees hsame events).map fun _ => Answer.nothing
  | pump => exact (pump_paired hagrees hsame).map Answer.flag
  | poll => exact (poll_paired hagrees hsame).map Answer.name
  | _ => cases hc

end Calls

structure SameCall (h : Host) (s : Session) (h' : Host) (t : Session) (c : Call) : Prop where
  result_eq : (t.happening h' c).result = (s.happening h c).result
  alongside : Alongside s t (s.happening h c).left (t.happening h' c).left

theorem sameCall_of_plays (hagrees : s.machine.Agrees t.machine)
    (hsame : SameSurroundings h s h' t) {c : Call} (hc : c.plays = true) : SameCall h s h' t c := by
  have hpaired := respond_paired hagrees hsame hc
  constructor
  · unfold happening
    dsimp only
    generalize c.respond h s = result at hpaired
    generalize c.respond h' t = result' at hpaired
    cases hpaired <;> rfl
  · unfold happening leftBy
    dsimp only
    generalize c.respond h s = result at hpaired
    generalize c.respond h' t = result' at hpaired
    cases hpaired with
    | ok hst => exact hst
    | error hst => exact hst

/-- The calls of a run come to the same in both sessions, one after the other. -/
structure SameCourse (h : Host) (s : Session) (h' : Host) (t : Session) (calls : List Call) :
    Prop where
  at_call : ∀ before c after, calls = before ++ c :: after →
    SameCall h (s.after (h.makes before)) h' (t.after (h'.makes before)) c
  agrees : (s.after (h.makes calls)).machine.Agrees (t.after (h'.makes calls)).machine

theorem surroundings_after (hagrees : s.machine.Agrees t.machine)
    (hsame : SameSurroundings h s h' t) {calls : List Call} (hcalls : ∀ c ∈ calls, c.plays = true) :
    (s.after (h.makes calls)).machine.Agrees (t.after (h'.makes calls)).machine ∧
      SameSurroundings h (s.after (h.makes calls)) h' (t.after (h'.makes calls)) := by
  -- on the calls: after the first one, the sessions are as alike as they were before it
  induction calls generalizing s t with
  | nil => exact ⟨hagrees, hsame⟩
  | cons c calls ih =>
    rw [List.forall_mem_cons] at hcalls
    have hcall := (sameCall_of_plays hagrees hsame hcalls.1).alongside
    rw [happening_left, happening_left] at hcall
    exact ih hcall.agrees (hcall.surroundings hsame) hcalls.2

/-- Neither the sound timer nor the marks that a machine keeps make a difference to any run. -/
theorem sameCourse_of_agrees (hagrees : s.machine.Agrees t.machine)
    (hsame : SameSurroundings h s h' t) {calls : List Call} (hcalls : ∀ c ∈ calls, c.plays = true) :
    SameCourse h s h' t calls := by
  refine ⟨fun before c after hsplit => ?_, (surroundings_after hagrees hsame hcalls).1⟩
  rw [hsplit, List.forall_mem_append, List.forall_mem_cons] at hcalls
  obtain ⟨hbefore, hsame'⟩ := surroundings_after hagrees hsame hcalls.1
  exact sameCall_of_plays hbefore hsame' hcalls.2.1

theorem leftBy_executeInt {s : Session} {w : Word} {op : Opcode} (hd : decode w = .ok op)
    (hrand : op.form ≠ .rand) (hkey : op.form ≠ .waitKey)
    (hf : (s.machine.enter op).fault? op = none) :
    leftBy (executeInt .quiet w.toNat) s =
      { s with machine := (s.machine.enter op).effect op 0 } := by
  have hexecute : execute .quiet op s = .ok () ((s.onMachine (·.enter op)).affected op 0) :=
    execute_of_none (answerTo_of_ne hrand hkey) hf
  have hdecoded : decodeIntTraced .quiet w.toNat s = .ok op s := by
    rw [decodeIntTraced_apply, hd]
    rfl
  rw [executeInt, leftBy_bind_of_ok hdecoded, leftBy_of_ok hexecute]
  rfl

def timed (setSound : Word) : Session :=
  (started .absent []).after
    [(.quiet, .execute (0x6001 : Word).toNat), (.quiet, .execute setSound.toNat)]

theorem timed_reachable (setSound : Word) : (timed setSound).Reachable :=
  (started_reachable .absent []).after _

def primed : Machine :=
  ((started .absent []).machine.enter ⟨0x6001, .setImm⟩).effect ⟨0x6001, .setImm⟩ 0

theorem primed_v (i : Nibble) : primed.v i = if i = 0 then 1 else 0 := by
  have hregisters : (started .absent []).machine.registers = .zero := by
    rw [started_eq .absent (by decide)]
    rfl
  have hv : primed.v i = (Registers.zero.set 0 1).get i := by
    rw [← hregisters]
    rfl
  rw [hv, Bank.get_set, Registers.zero, Bank.get_fill]

theorem timed_eq {w : Word} {op : Opcode} (hd : decode w = .ok op) (hop : op.form = .setSound) :
    timed w = { started .absent [] with
      machine := { primed.enter op with sound := ⟨primed.v op.x⟩ } } := by
  have hdecode : decode 0x6001 = .ok ⟨0x6001, .setImm⟩ := rfl
  have hprimed : leftBy (executeInt .quiet (0x6001 : Word).toNat) (started .absent []) =
      { started .absent [] with machine := primed } :=
    leftBy_executeInt hdecode (by decide) (by decide) rfl
  have hfault : (primed.enter op).fault? op = none := by simp [Machine.fault?, hop]
  have hset := leftBy_executeInt (s := { started .absent [] with machine := primed }) hd
    (by simp [hop]) (by simp [hop]) hfault
  have heffect : (primed.enter op).effect op 0 =
      { primed.enter op with sound := ⟨primed.v op.x⟩ } := by
    simp only [Machine.effect, hop, Machine.v, Machine.enter_registers]
  have haction : ∀ v, Call.action .quiet (.execute v) = executeInt .quiet v := fun _ => rfl
  rw [timed, after, after, after, haction, haction, hprimed, hset]
  dsimp only
  rw [heffect]

theorem sound_ends_unobserved :
    (timed 0xF018).Reachable ∧ (timed 0xF118).Reachable ∧
      (timed 0xF018).machine.sound.value = 1 ∧ (timed 0xF118).machine.sound.value = 0 ∧
      (timed 0xF018).machine.Agrees (timed 0xF118).machine ∧
      SameSurroundings ringing (timed 0xF018) ringing (timed 0xF118) ∧
      SameCourse ringing (timed 0xF018) ringing (timed 0xF118)
        [.cycle, .press (some "1"), .cycle] := by
  have hloud : timed 0xF018 = { started .absent [] with
      machine := { primed.enter ⟨0xF018, .setSound⟩ with sound := ⟨1⟩ } } := by
    have hset : timed 0xF018 = _ := timed_eq rfl rfl
    rw [hset, primed_v]
    rfl
  have hsilent : timed 0xF118 = { started .absent [] with
      machine := { primed.enter ⟨0xF118, .setSound⟩ with sound := ⟨0⟩ } } := by
    have hset : timed 0xF118 = _ := timed_eq rfl rfl
    rw [hset, primed_v]
    rfl
  have hagrees : (timed 0xF018).machine.Agrees (timed 0xF118).machine := by
    rw [hloud, hsilent]
    exact ⟨rfl, rfl, rfl, rfl, rfl, rfl, rfl, rfl⟩
  have hsame : SameSurroundings ringing (timed 0xF018) ringing (timed 0xF118) := by
    have hstops : ∀ beeper, ringing.beeper = some beeper →
        ∀ n, ∀ r ∈ (beeper n).requests, r = .stop := by
      intro beeper hbeeper n
      cases hbeeper
      exact List.forall_mem_nil _
    rw [hloud, hsilent]
    exact ⟨rfl, fun _ => rfl, rfl, rfl, rfl, fun _ _ hnone => (by cases hnone), hstops, hstops⟩
  have hcourse := sameCourse_of_agrees hagrees hsame
    (show ∀ c ∈ [Call.cycle, .press (some "1"), .cycle], c.plays = true by simp [Call.plays])
  refine ⟨timed_reachable _, timed_reachable _, ?_, ?_, hagrees, hsame, hcourse⟩
  · rw [hloud]
  · rw [hsilent]

end Session

end ChipEight
