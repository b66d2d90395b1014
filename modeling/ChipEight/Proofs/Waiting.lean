import ChipEight.Proofs.Layout
import ChipEight.Session.Events

/-! How much of a queue a wait for a key takes: the events up to the one that ends it, polled one after the
other. -/

namespace ChipEight

open Actions

namespace Keypad

/-- How a wait comes out: it finds no more events, or a request to quit, or a key of the layout that goes
down. The keys move with the events up to there. -/
inductive Awaits (k : Keypad) : List Event → Wait → Prop
  | dry {events : List Event} (hpass : ∀ e ∈ events, k.Passes e) :
      k.Awaits events ⟨.dry, k.applyAll events, []⟩
  | quit {before after : List Event} {e : Event} (hpass : ∀ b ∈ before, k.Passes b)
      (hquit : e.isQuit = true) :
      k.Awaits (before ++ e :: after) ⟨.quit, k.applyAll (before ++ [e]), after⟩
  | key {before after : List Event} {e : Event} {code : Nat} (hpass : ∀ b ∈ before, k.Passes b)
      (hquit : e.isQuit = false) (hcode : k.code? (reported e) = some code) :
      k.Awaits (before ++ e :: after) ⟨.key code, k.applyAll (before ++ [e]), after⟩

theorem applyAll_cons_of_unquit (k : Keypad) {e : Event} (he : e.isQuit = false)
    (events : List Event) : k.applyAll (e :: events) = (k.apply e).applyAll events := by
  rw [applyAll_cons, he]
  rfl

theorem Awaits.cons {k : Keypad} {e : Event} {events : List Event} {w : Wait} (he : k.Passes e)
    (hw : (k.apply e).Awaits events w) : k.Awaits (e :: events) w := by
  have hpass : ∀ {before : List Event}, (∀ b ∈ before, (k.apply e).Passes b) →
      ∀ b ∈ e :: before, k.Passes b := fun hbefore =>
    List.forall_mem_cons.2 ⟨he, fun b hb => k.passes_apply.1 (hbefore b hb)⟩
  cases hw with
  | dry hall =>
    rw [← k.applyAll_cons_of_unquit he.1]
    exact .dry (hpass hall)
  | quit hall hquit =>
    rw [← k.applyAll_cons_of_unquit he.1]
    exact .quit (hpass hall) hquit
  | key hall hquit hcode =>
    rw [← k.applyAll_cons_of_unquit he.1]
    exact .key (hpass hall) hquit (by rwa [code?_apply] at hcode)

theorem await_awaits (k : Keypad) (events : List Event) : k.Awaits events (k.await events) := by
  induction events generalizing k with
  | nil => exact .dry (List.forall_mem_nil _)
  | cons e rest ih =>
    have hone : k.applyAll ([] ++ [e]) = if e.isQuit then k else k.apply e := rfl
    obtain hquit | ⟨code, hquit, hcode⟩ | hpass := k.event_cases e
    · have hw : k.Awaits ([] ++ e :: rest) _ := .quit (List.forall_mem_nil _) hquit
      rw [k.await_of_quit hquit]
      rwa [hone, hquit] at hw
    · have hw : k.Awaits ([] ++ e :: rest) _ := .key (List.forall_mem_nil _) hquit hcode
      rw [k.await_of_key hquit hcode]
      rwa [hone, hquit] at hw
    · rw [k.await_of_passes hpass]
      exact (ih (k.apply e)).cons hpass

end Keypad

namespace Session

def withKeys (s : Session) (keypad : Keypad) (queue : List Event) : Session :=
  { s with
    machine := { s.machine with keypad := keypad }
    keyboard := { s.keyboard with queue := queue } }

variable {s : Session} {e : Event} {rest : List Event}

theorem awaitKey_of_absent (hsource : s.source = .absent) :
    SessionM.awaitKey s = .error (.fault .noKeySource) s := by
  unfold SessionM.awaitKey
  rw [hsource]

def polled (s : Session) (found : Keypad.Search) : Session :=
  { s with source := .script found.rest, polls := s.polls + found.polls }

theorem awaitKey_of_script {names : List KeyName} (hsource : s.source = .script names) :
    SessionM.awaitKey s =
      match (s.machine.keypad.search names).found with
      | some code => .ok code (s.polled (s.machine.keypad.search names))
      | none => .error .dry (s.polled (s.machine.keypad.search names)) := by
  unfold SessionM.awaitKey
  rw [hsource]
  rfl

theorem awaitKey_of_keyboard (s : Session) (hsource : s.source = .keyboard) :
    SessionM.awaitKey s =
      let w := s.machine.keypad.await s.keyboard.queue
      match w.ended with
      | .key code => .ok code (s.withKeys w.keypad w.rest)
      | .quit => .error (.exit 0) (s.withKeys w.keypad w.rest)
      | .dry => .error .dry (s.withKeys w.keypad w.rest) := by
  obtain ⟨_, source, _, _, _, _, _, _, _, _⟩ := s
  obtain rfl : source = .keyboard := hsource
  rfl

theorem awaitKey_cases (hsource : s.source = .keyboard) :
    (∃ code taken s', SessionM.awaitKey s = .ok code s' ∧
      s.keyboard.queue = taken ++ s'.keyboard.queue ∧ ∀ e ∈ taken, e.isQuit = false) ∨
    (∃ before e s', SessionM.awaitKey s = .error (.exit 0) s' ∧
      s.keyboard.queue = before ++ e :: s'.keyboard.queue ∧ e.isQuit = true) ∨
    ∃ s', SessionM.awaitKey s = .error .dry s' ∧ s'.keyboard.queue = [] := by
  have hawaits := s.machine.keypad.await_awaits s.keyboard.queue
  rw [awaitKey_of_keyboard s hsource]
  generalize s.machine.keypad.await s.keyboard.queue = w at hawaits
  generalize s.keyboard.queue = queue at hawaits
  cases hawaits with
  | dry => exact .inr (.inr ⟨_, rfl, rfl⟩)
  | quit _ hquit => exact .inr (.inl ⟨_, _, _, rfl, rfl, hquit⟩)
  | @key before after e code hpass hquit _ =>
    refine .inl ⟨_, before ++ [e], _, rfl, ?_, fun b hb => ?_⟩
    · exact (List.append_cons before e after)
    · obtain hb | hb := List.mem_append.1 hb
      · exact (hpass b hb).1
      · rw [List.mem_singleton.1 hb]
        exact hquit

theorem pump_apply (s : Session) :
    pump s = .ok (!(s.keyboard.quitRequested || s.keyboard.queue.any Event.isQuit))
      { s with
        machine := { s.machine with keypad := s.machine.keypad.applyAll s.keyboard.queue }
        keyboard := ⟨[], s.keyboard.quitRequested || s.keyboard.queue.any Event.isQuit⟩ } := rfl

theorem poll_of_nil (hqueue : s.keyboard.queue = []) : poll s = .ok none s := by
  unfold poll
  rw [hqueue]

theorem poll_of_quit (hqueue : s.keyboard.queue = e :: rest) (hquit : e.isQuit = true) :
    poll s = .error (.exit 0) (s.withKeys s.machine.keypad rest) := by
  unfold poll
  rw [hqueue]
  dsimp only
  rw [hquit]
  rfl

theorem poll_of_unquit (hqueue : s.keyboard.queue = e :: rest) (hquit : e.isQuit = false) :
    poll s = .ok (Keypad.reported e) (s.withKeys (s.machine.keypad.apply e) rest) := by
  unfold poll
  rw [hqueue]
  dsimp only
  rw [hquit]
  rfl

end Session

def SessionM.pollForKey : SessionM Int := do
  let name ← poll
  match (← get).machine.keypad.code? name with
  | some code => return code
  | none => awaitKey

theorem SessionM.pollForKey_apply (s : Session) :
    pollForKey s =
      match poll s with
      | .ok name t =>
        match t.machine.keypad.code? name with
        | some code => .ok (code : Int) t
        | none => awaitKey t
      | .error e t => .error e t := by
  unfold pollForKey
  rw [bind_apply]
  cases poll s with
  | error e t => rfl
  | ok name t =>
    rw [proceed_ok, bind_apply, get_apply, proceed_ok]
    dsimp only
    cases t.machine.keypad.code? name <;> rfl

theorem awaitKey_eq_pollForKey {s : Session} (hsource : s.source = .keyboard)
    (hqueue : s.keyboard.queue ≠ []) : SessionM.awaitKey s = SessionM.pollForKey s := by
  obtain ⟨e, rest, hcons⟩ := List.exists_cons_of_ne_nil hqueue
  -- no event changes the layout by which the names of keys are looked up
  have hafter : ∀ queue, (s.withKeys (s.machine.keypad.apply e) queue).machine.keypad.code?
      (Keypad.reported e) = s.machine.keypad.code? (Keypad.reported e) :=
    fun _ => s.machine.keypad.code?_apply e (Keypad.reported e)
  rw [SessionM.pollForKey_apply, s.awaitKey_of_keyboard hsource, hcons]
  obtain hquit | ⟨code, hquit, hcode⟩ | hpass := s.machine.keypad.event_cases e
  · rw [Session.poll_of_quit hcons hquit, Keypad.await_of_quit _ hquit]
  · rw [Session.poll_of_unquit hcons hquit, Keypad.await_of_key _ hquit hcode]
    dsimp only
    rw [hafter, hcode]
  · rw [Session.poll_of_unquit hcons hpass.1, Keypad.await_of_passes _ hpass]
    dsimp only
    rw [hafter, hpass.2]
    exact ((s.withKeys (s.machine.keypad.apply e) rest).awaitKey_of_keyboard hsource).symm

end ChipEight
