import ChipEight.Proofs.Calls
import ChipEight.Proofs.Hooks
import ChipEight.Proofs.Waiting

/-! What becomes of the events that are posted: each of them is taken off the queue once and in order, and
moves its key then, whoever takes it. -/

namespace ChipEight

open Actions

/-- The hooks of a host ask for nothing but a stop, so that they move no keys. -/
structure Host.LeavesKeys (h : Host) : Prop where
  renderer_stops : ∀ renderer, h.renderer = some renderer →
    ∀ n frame, ∀ r ∈ (renderer n frame).requests, r = .stop
  beeper_stops : ∀ beeper, h.beeper = some beeper → ∀ n, ∀ r ∈ (beeper n).requests, r = .stop

namespace Session

section Hooks

variable (s : Session) {h : Host}

theorem grants_keypad {rs : List Request} (hrs : ∀ r ∈ rs, r = .stop) :
    (rs.foldl grant s).machine.keypad = s.machine.keypad := by
  induction rs generalizing s with
  | nil => rfl
  | cons r rs ih =>
    rw [List.forall_mem_cons] at hrs
    obtain ⟨rfl, hrest⟩ := hrs
    exact ih (s.grant .stop) hrest

theorem accept_keypad {r : Reply} (hr : ∀ request ∈ r.requests, request = .stop) :
    (s.accept r).machine.keypad = s.machine.keypad := by
  unfold accept
  split
  · exact s.grants_keypad hr
  · exact (s.print (.plain r.text)).grants_keypad hr

theorem tickTimers_keypad_of_stops (hstops : ∀ beeper, h.beeper = some beeper →
    ∀ n, ∀ r ∈ (beeper n).requests, r = .stop) :
    (s.tickTimers h).machine.keypad = s.machine.keypad := by
  have hbeep : ∀ t : Session, (t.beep h).machine.keypad = t.machine.keypad := by
    intro t
    unfold beep
    split
    · next beeper hbeeper => exact accept_keypad _ (hstops beeper hbeeper t.beeps)
    · rfl
  unfold tickTimers
  dsimp only
  split
  · exact hbeep _
  · rfl

theorem tickTimers_keypad (hh : h.LeavesKeys) :
    (s.tickTimers h).machine.keypad = s.machine.keypad :=
  s.tickTimers_keypad_of_stops hh.beeper_stops

theorem present_keypad (hh : h.LeavesKeys) :
    (s.present h).machine.keypad = s.machine.keypad := by
  unfold present
  split
  · next renderer hrenderer =>
    split
    · exact accept_keypad _ (hh.renderer_stops renderer hrenderer s.frames s.machine.screen)
    · rfl
  · rfl

end Hooks

/-- Some events are taken off the queue and move their keys. What else there is about the keyboard stays
as it is, and so does the clock. -/
structure Consumed (s : Session) (taken : List Event) (s' : Session) : Prop where
  queue_eq : s.keyboard.queue = taken ++ s'.keyboard.queue
  keypad_eq : s'.machine.keypad = s.machine.keypad.applyAll taken
  requested_eq : s'.keyboard.quitRequested = s.keyboard.quitRequested
  source_eq : s.source = .keyboard → s'.source = .keyboard
  ticks_eq : s'.ticks = s.ticks

namespace Consumed

variable {s s₁ s' : Session} {taken more : List Event}

theorem of_eq (hkeyboard : s'.keyboard = s.keyboard)
    (hkeypad : s'.machine.keypad = s.machine.keypad)
    (hsource : s.source = .keyboard → s'.source = .keyboard) (hticks : s'.ticks = s.ticks) :
    s.Consumed [] s' where
  queue_eq := by rw [hkeyboard, List.nil_append]
  keypad_eq := hkeypad
  requested_eq := by rw [hkeyboard]
  source_eq := hsource
  ticks_eq := hticks

theorem refl (s : Session) : s.Consumed [] s :=
  of_eq rfl rfl id rfl

theorem trans (h₁ : s.Consumed taken s₁) (h₂ : s₁.Consumed more s') :
    s.Consumed (taken ++ more) s' where
  queue_eq := by rw [h₁.queue_eq, h₂.queue_eq, List.append_assoc]
  keypad_eq := by rw [h₂.keypad_eq, h₁.keypad_eq, Keypad.applyAll_append]
  requested_eq := h₂.requested_eq.trans h₁.requested_eq
  source_eq := fun hs => h₂.source_eq (h₁.source_eq hs)
  ticks_eq := h₂.ticks_eq.trans h₁.ticks_eq

end Consumed

end Session

def Consumes {α : Type} (x : SessionM α) : Prop :=
  ∀ s : Session, ∃ taken, s.Consumed taken (leftBy x s)

namespace Consumes

variable {α β : Type} {x : SessionM α} {f : α → SessionM β}

theorem pure (a : α) : Consumes (Pure.pure a : SessionM α) :=
  fun s => ⟨[], .refl s⟩

theorem modify {g : Session → Session} (hg : ∀ s : Session, s.Consumed [] (g s)) :
    Consumes (modifyGet fun s => ((), g s) : SessionM Unit) :=
  fun s => ⟨[], hg s⟩

theorem bind (hx : Consumes x) (hf : ∀ a, Consumes (f a)) : Consumes (x >>= f) := by
  intro s
  have hkeeps : Keeps (fun s' => ∃ taken, s.Consumed taken s') (x >>= f) := by
    refine .bind ?_ fun a => ?_
    · rintro s₁ ⟨taken, h₁⟩
      obtain ⟨more, h₂⟩ := hx s₁
      exact ⟨taken ++ more, h₁.trans h₂⟩
    · rintro s₁ ⟨taken, h₁⟩
      obtain ⟨more, h₂⟩ := hf a s₁
      exact ⟨taken ++ more, h₁.trans h₂⟩
  exact hkeeps s ⟨[], .refl s⟩

end Consumes

section Cycle

variable {h : Host}

theorem ofExcept_consumes {α : Type} (x : Except Fault α) : Consumes (SessionM.ofExcept x) := by
  cases x <;> exact fun s => ⟨[], .refl s⟩

theorem trace_consumes (h : Host) (text : Session → String) :
    Consumes (modify fun s => s.trace h (text s) : SessionM Unit) := by
  refine .modify fun s => ?_
  rw [Session.trace_eq]
  exact .of_eq rfl rfl id rfl

theorem awaitKey_consumes : Consumes SessionM.awaitKey := by
  intro s
  unfold leftBy SessionM.awaitKey
  cases hsource : s.source with
  | absent => exact ⟨[], .refl s⟩
  | script names =>
    have hne : s.source = .keyboard → KeySource.script
        (s.machine.keypad.search names).rest = .keyboard := by
      rw [hsource]
      nofun
    dsimp only
    cases (s.machine.keypad.search names).found <;> exact ⟨[], .of_eq rfl rfl hne rfl⟩
  | keyboard =>
    obtain ⟨taken, hqueue, hkeypad⟩ := s.machine.keypad.await_taken s.keyboard.queue
    dsimp only
    cases (s.machine.keypad.await s.keyboard.queue).ended <;>
      exact ⟨taken, hqueue, hkeypad, rfl, fun _ => rfl, rfl⟩

theorem answerTo_consumes (h : Host) (f : Form) : Consumes (answerTo h f) := by
  by_cases hkey : f = .waitKey
  · subst hkey
    exact awaitKey_consumes
  · by_cases hrand : f = .rand
    · subst hrand
      exact fun s => ⟨[], .of_eq rfl rfl id rfl⟩
    · intro s
      rw [leftBy_of_ok (answerTo_of_ne hrand hkey)]
      exact ⟨[], .refl s⟩

theorem perform_consumes (op : Opcode) (answer : Int) :
    Consumes (SessionM.ofMachine (op.perform answer)) := by
  intro s
  have hleft : s.Consumed [] (s.affected op answer) :=
    .of_eq rfl (Machine.effect_keypad ..) id rfl
  cases hf : s.machine.fault? op with
  | none =>
    rw [leftBy_of_ok (SessionM.ofMachine_perform_of_none s hf answer)]
    exact ⟨[], hleft⟩
  | some f =>
    rw [leftBy_of_error (SessionM.ofMachine_perform_of_fault s hf answer)]
    exact ⟨[], hleft⟩

theorem execute_consumes (h : Host) (op : Opcode) : Consumes (execute h op) :=
  .bind (.modify fun s => .of_eq rfl (s.machine.enter_keypad op) id rfl) fun _ =>
    .bind (answerTo_consumes h op.form) fun answer =>
      .bind (perform_consumes op answer) fun _ => trace_consumes h _

theorem conclude_consumes (hh : h.LeavesKeys) :
    Consumes (modify fun s => (s.tickTimers h).present h : SessionM Unit) := by
  refine .modify fun s => ?_
  have hkeypad : ((s.tickTimers h).present h).machine.keypad = s.machine.keypad :=
    ((s.tickTimers h).present_keypad hh).trans (s.tickTimers_keypad hh)
  refine .of_eq ?_ hkeypad ?_ ?_
  · rw [Session.present_eq, Session.tickTimers_eq]
  · rw [Session.present_eq, Session.tickTimers_eq]
    exact id
  · rw [Session.present_eq, Session.tickTimers_eq]

theorem cycle_consumes (hh : h.LeavesKeys) : Consumes (cycle h) :=
  .bind (.modify fun _ => .of_eq rfl rfl id rfl) fun _ =>
    .bind (fun s => ⟨[], .refl s⟩) fun _ =>
      .bind (ofExcept_consumes _) fun _ =>
        .bind (.bind (ofExcept_consumes _) fun _ => .bind (trace_consumes h _) fun _ =>
          ofExcept_consumes _) fun op =>
          .bind (execute_consumes h op) fun _ => .bind (conclude_consumes hh) fun _ => .pure op

end Cycle

theorem poll_consumes : Consumes poll := by
  intro s
  cases hqueue : s.keyboard.queue with
  | nil =>
    rw [leftBy_of_ok (Session.poll_of_nil hqueue)]
    exact ⟨[], .refl s⟩
  | cons e rest =>
    have happlied : s.machine.keypad.applyAll [e] =
        if e.isQuit then s.machine.keypad else s.machine.keypad.apply e := rfl
    refine ⟨[e], ?_⟩
    cases hquit : e.isQuit with
    | true =>
      rw [leftBy_of_error (Session.poll_of_quit hqueue hquit)]
      rw [hquit] at happlied
      exact ⟨hqueue, happlied.symm, rfl, id, rfl⟩
    | false =>
      rw [leftBy_of_ok (Session.poll_of_unquit hqueue hquit)]
      rw [hquit] at happlied
      exact ⟨hqueue, happlied.symm, rfl, id, rfl⟩

def Call.posted : Call → List Event
  | post events => events
  | _ => []

def Call.feeds : Call → Bool
  | post _ | pump | poll | cycle => true
  | _ => false

def postedIn (calls : List (Host × Call)) : List Event :=
  calls.flatMap (·.2.posted)

namespace Session

/-- The events that a call takes off the queue: as many from its front as are missing afterwards. -/
def takenBy (s : Session) (call : Host × Call) : List Event :=
  let waiting := s.keyboard.queue ++ call.2.posted
  waiting.take (waiting.length - (s.after [call]).keyboard.queue.length)

def taken (s : Session) : List (Host × Call) → List Event
  | [] => []
  | call :: calls => s.takenBy call ++ (s.after [call]).taken calls

theorem after_single (s : Session) (h : Host) (c : Call) :
    s.after [(h, c)] = leftBy (c.action h) s := rfl

section Step

variable {s : Session} {call : Host × Call}

theorem feeds_takes (s : Session) (hh : call.1.LeavesKeys) (hfeeds : call.2.feeds = true) :
    ∃ taken, s.keyboard.queue ++ call.2.posted = taken ++ (s.after [call]).keyboard.queue ∧
      (s.after [call]).machine.keypad = s.machine.keypad.applyAll taken ∧
      (s.source = .keyboard → (s.after [call]).source = .keyboard) := by
  obtain ⟨h, c⟩ := call
  have hconsumes : c.posted = [] → Consumes (c.action h) →
      ∃ taken, s.keyboard.queue ++ c.posted = taken ++ (s.after [(h, c)]).keyboard.queue ∧
        (s.after [(h, c)]).machine.keypad = s.machine.keypad.applyAll taken ∧
        (s.source = .keyboard → (s.after [(h, c)]).source = .keyboard) := by
    intro hposted haction
    obtain ⟨taken, hconsumed⟩ := haction s
    rw [after_single, hposted, List.append_nil]
    exact ⟨taken, hconsumed.queue_eq, hconsumed.keypad_eq, hconsumed.source_eq⟩
  cases c with
  | post events => exact ⟨[], rfl, rfl, id⟩
  | pump => exact ⟨s.keyboard.queue, rfl, rfl, id⟩
  | poll => exact hconsumes rfl (.bind poll_consumes fun _ => .pure ())
  | cycle => exact hconsumes rfl (.bind (cycle_consumes hh) fun _ => .pure ())
  | _ => cases hfeeds

theorem takenBy_eq {taken : List Event}
    (h : s.keyboard.queue ++ call.2.posted = taken ++ (s.after [call]).keyboard.queue) :
    s.takenBy call = taken := by
  have hlength : (taken ++ (s.after [call]).keyboard.queue).length -
      (s.after [call]).keyboard.queue.length = taken.length := by
    rw [List.length_append, Nat.add_sub_cancel]
  rw [takenBy, h, hlength, List.take_left]

theorem takenBy_poll_of_cons {e : Event} {rest : List Event} (h : Host)
    (hqueue : s.keyboard.queue = e :: rest) : s.takenBy (h, .poll) = [e] := by
  have hrest : (s.after [(h, .poll)]).keyboard.queue = rest := by
    rw [after_single, Call.action, leftBy, bind_apply]
    cases hquit : e.isQuit with
    | true =>
      rw [poll_of_quit hqueue hquit]
      rfl
    | false =>
      rw [poll_of_unquit hqueue hquit]
      rfl
  refine takenBy_eq ?_
  rw [hrest, hqueue]
  exact List.append_nil _

theorem takenBy_poll_le (s : Session) (h : Host) : (s.takenBy (h, .poll)).length ≤ 1 := by
  cases hqueue : s.keyboard.queue with
  | nil =>
    have hnone : s.keyboard.queue ++ Call.poll.posted = [] := by
      rw [hqueue]
      rfl
    rw [takenBy, hnone, List.take_nil]
    exact Nat.zero_le 1
  | cons e rest =>
    rw [takenBy_poll_of_cons h hqueue]
    exact Nat.le_refl 1

end Step

theorem feed_takes (s : Session) {calls : List (Host × Call)}
    (hcalls : ∀ call ∈ calls, call.1.LeavesKeys ∧ call.2.feeds = true) :
    s.keyboard.queue ++ postedIn calls = s.taken calls ++ (s.after calls).keyboard.queue ∧
      (s.after calls).machine.keypad = s.machine.keypad.applyAll (s.taken calls) ∧
      (s.source = .keyboard → (s.after calls).source = .keyboard) := by
  -- on the calls: what the first one leaves on the queue is what the others find there
  induction calls generalizing s with
  | nil => exact ⟨List.append_nil _, rfl, id⟩
  | cons call calls ih =>
    rw [List.forall_mem_cons] at hcalls
    obtain ⟨taken, hqueue, hkeypad, hsource⟩ := s.feeds_takes hcalls.1.1 hcalls.1.2
    obtain ⟨hrest, hmoved, hstill⟩ := ih (s.after [call]) hcalls.2
    have hcons : s.taken (call :: calls) = taken ++ (s.after [call]).taken calls := by
      rw [Session.taken, takenBy_eq hqueue]
    refine ⟨?_, ?_, fun hs => hstill (hsource hs)⟩
    · calc s.keyboard.queue ++ postedIn (call :: calls)
          = (s.keyboard.queue ++ call.2.posted) ++ postedIn calls := (List.append_assoc ..).symm
        _ = taken ++ ((s.after [call]).keyboard.queue ++ postedIn calls) := by
          rw [hqueue, List.append_assoc]
        _ = s.taken (call :: calls) ++ (s.after (call :: calls)).keyboard.queue := by
          rw [hrest, hcons, List.append_assoc]
          rfl
    · rw [hcons, Keypad.applyAll_append, ← hkeypad]
      exact hmoved

structure Attached (s : Session) : Prop where
  source_eq : s.source = .keyboard
  queue_eq : s.keyboard.queue = []
  keypad_eq : s.machine.keypad = .standard

theorem exit_of_feeds {s t : Session} {call : Host × Call} {status : Nat}
    (hfeeds : call.2.feeds = true)
    (hexit : call.2.action call.1 s = .error (.exit status) t) :
    ∃ e ∈ s.keyboard.queue, e.isQuit = true := by
  obtain ⟨h, c⟩ := call
  cases c with
  | post events => cases hexit
  | pump => cases hexit
  | poll =>
    rw [Call.action, bind_apply] at hexit
    cases hqueue : s.keyboard.queue with
    | nil =>
      rw [poll_of_nil hqueue] at hexit
      cases hexit
    | cons e rest =>
      refine ⟨e, List.mem_cons_self .., Bool.of_not_eq_false fun hquit => ?_⟩
      rw [poll_of_unquit hqueue hquit] at hexit
      cases hexit
  | cycle =>
    rw [Call.action, bind_apply] at hexit
    cases hcycle : ChipEight.cycle h s with
    | ok op s' =>
      rw [hcycle] at hexit
      cases hexit
    | error e s' =>
      rw [hcycle, proceed_error] at hexit
      cases hexit
      cases Fails.of_halts (cycle_error_iff.1 hcycle) with
      | wait _ _ hkeyless =>
        cases hkeyless with
        | quit _ hqueue _ he =>
          rw [hqueue]
          exact ⟨_, List.mem_append_right _ (List.mem_cons_self ..), he⟩
  | _ => cases hfeeds

/-- What calls that feed come to, from the moment on at which a keyboard was attached. -/
structure AppliedOnce (s : Session) (calls : List (Host × Call)) : Prop where
  in_order : postedIn calls = s.taken calls ++ (s.after calls).keyboard.queue
  held_iff : ∀ i : Nibble, (s.after calls).machine.keypad.held.get i = true ↔
    Event.lastOn? (Keypad.standardName i) (s.taken calls) = some (.keyDown (Keypad.standardName i))
  pump_empties : ∀ h, (s.after (calls ++ [(h, .pump)])).keyboard.queue = []
  poll_takes : ∀ h, ((s.after calls).takenBy (h, .poll)).length ≤ 1
  waits_by_polls : ∀ h op, ((s.after calls).begun h op).keyboard.queue ≠ [] →
    SessionM.awaitKey ((s.after calls).begun h op) =
      SessionM.pollForKey ((s.after calls).begun h op)
  unquit_stays : (∀ e ∈ postedIn calls, e.isQuit = false) →
    ∀ call : Host × Call, call.2.feeds = true →
      ∀ status t, call.2.action call.1 (s.after calls) ≠ .error (.exit status) t
  unquit_keypad : (∀ e ∈ postedIn calls, e.isQuit = false) →
    (s.after calls).keyboard.queue = [] →
      (s.after calls).machine.keypad = (postedIn calls).foldl Keypad.apply .standard

/-- Every event is applied once and in order, by whichever calls it is taken. -/
theorem applied_once_in_order {s : Session} (hs : s.Attached) {calls : List (Host × Call)}
    (hcalls : ∀ call ∈ calls, call.1.LeavesKeys ∧ call.2.feeds = true) : s.AppliedOnce calls := by
  obtain ⟨hqueue, hkeypad, hsource⟩ := s.feed_takes hcalls
  rw [hs.queue_eq, List.nil_append] at hqueue
  rw [hs.keypad_eq] at hkeypad
  -- nothing is waiting that has not been posted, no request to quit in particular
  have hwaiting : ∀ e ∈ (s.after calls).keyboard.queue, e ∈ postedIn calls := by
    intro e he
    rw [hqueue]
    exact List.mem_append_right _ he
  refine ⟨hqueue, fun i => ?_, fun h => ?_, takenBy_poll_le _, fun h op hne => ?_, ?_, ?_⟩
  · rw [hkeypad, Keypad.held_applyAll rfl]
    cases Event.lastOn? (Keypad.standardName i) (s.taken calls) with
    | none => simp [Keypad.standard, Keypad.ofLayout]
    | some e => simp
  · rw [after_append]
    rfl
  · exact awaitKey_eq_pollForKey ((trace_source ..).trans (hsource hs.source_eq)) hne
  · intro hposted call hfeeds status t hexit
    obtain ⟨e, he, hquit⟩ := exit_of_feeds hfeeds hexit
    rw [hposted e (hwaiting e he)] at hquit
    cases hquit
  · intro hposted hempty
    rw [hempty, List.append_nil] at hqueue
    rw [hkeypad, ← hqueue, Keypad.applyAll_of_unquit _ hposted]

def awaiting : Session :=
  .started .keyboard [0xF0, 0x0A]

def struck : List (Host × Call) :=
  [(.quiet, .post [.keyDown (Keypad.standardName 5), .keyUp (Keypad.standardName 5)]),
    (.quiet, .cycle), (.quiet, .pump)]

theorem struck_applied_once :
    awaiting.Attached ∧ (∀ call ∈ struck, call.1.LeavesKeys ∧ call.2.feeds = true) ∧
      awaiting.AppliedOnce struck ∧ awaiting.taken struck = postedIn struck ∧
      (awaiting.after struck).machine.keypad.held.get 5 = false := by
  have hattached : awaiting.Attached := by
    rw [awaiting, started_eq .keyboard (by decide)]
    exact ⟨rfl, rfl, rfl⟩
  have hcalls : ∀ call ∈ struck, call.1.LeavesKeys ∧ call.2.feeds = true := by
    have hquiet : Host.quiet.LeavesKeys := ⟨nofun, nofun⟩
    rw [struck, List.forall_mem_cons, List.forall_mem_cons, List.forall_mem_singleton]
    exact ⟨⟨hquiet, rfl⟩, ⟨hquiet, rfl⟩, hquiet, rfl⟩
  have happlied := applied_once_in_order hattached hcalls
  have hempty : (awaiting.after struck).keyboard.queue = [] := by
    rw [struck, after, after, after_single]
    rfl
  have htaken : awaiting.taken struck = postedIn struck := by
    rw [happlied.in_order, hempty, List.append_nil]
  refine ⟨hattached, hcalls, happlied, htaken, Bool.eq_false_iff.2 fun hheld => ?_⟩
  have hlast := (happlied.held_iff 5).1 hheld
  rw [htaken] at hlast
  have hup : Event.lastOn? (Keypad.standardName 5) (postedIn struck) =
      some (.keyUp (Keypad.standardName 5)) := by
    simp [postedIn, struck, Call.posted, Event.lastOn?, Event.concerns]
  cases hup.symm.trans hlast

end Session

end ChipEight
