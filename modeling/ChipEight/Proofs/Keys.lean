import ChipEight.Proofs.Surroundings

/-! How a wait for a key ends, by what its source has to offer. -/

namespace ChipEight

namespace Keypad

variable (k : Keypad)

@[simp] theorem code?_setHeld (code : Int) (down : Bool) (name : KeyName) :
    (k.setHeld code down).code? name = k.code? name := by
  cases name <;> rfl

@[simp] theorem code?_move (moved : KeyName) (down : Bool) (name : KeyName) :
    (k.move moved down).code? name = k.code? name := by
  unfold move
  split
  · exact k.code?_setHeld _ _ _
  · rfl

@[simp] theorem code?_apply (e : Event) (name : KeyName) :
    (k.apply e).code? name = k.code? name := by
  cases e with
  | keyDown key => exact k.code?_move _ _ _
  | keyUp key => exact k.code?_move _ _ _
  | close => rfl
  | other => rfl

theorem search_found_eq_none (names : List KeyName) :
    (k.search names).found = none ↔ ∀ name ∈ names, k.code? name = none := by
  induction names with
  | nil => simp [search]
  | cons name names ih =>
    rw [search, List.forall_mem_cons]
    cases hcode : k.code? name with
    | none => exact ih.trans ⟨fun h => ⟨rfl, h⟩, And.right⟩
    | some code => simp

def Passes (e : Event) : Prop :=
  e.isQuit = false ∧ k.code? (reported e) = none

theorem passes_apply {e f : Event} : (k.apply e).Passes f ↔ k.Passes f := by
  unfold Passes
  rw [code?_apply]

theorem await_of_quit {e : Event} (he : e.isQuit = true) (rest : List Event) :
    k.await (e :: rest) = ⟨.quit, k, rest⟩ := by
  rw [await, if_pos he]

theorem await_of_passes {e : Event} (he : k.Passes e) (rest : List Event) :
    k.await (e :: rest) = (k.apply e).await rest := by
  rw [await, if_neg (Bool.eq_false_iff.1 he.1), code?_apply, he.2]

theorem await_of_key {e : Event} {code : Nat} (he : e.isQuit = false)
    (hcode : k.code? (reported e) = some code) (rest : List Event) :
    k.await (e :: rest) = ⟨.key code, k.apply e, rest⟩ := by
  rw [await, if_neg (Bool.eq_false_iff.1 he), code?_apply, hcode]

theorem event_cases (e : Event) :
    e.isQuit = true ∨ (∃ code, e.isQuit = false ∧ k.code? (reported e) = some code) ∨
      k.Passes e := by
  cases hq : e.isQuit with
  | true => exact .inl rfl
  | false =>
    cases hcode : k.code? (reported e) with
    | some code => exact .inr (.inl ⟨code, rfl, rfl⟩)
    | none => exact .inr (.inr ⟨hq, hcode⟩)

theorem await_ended_eq_dry (events : List Event) :
    (k.await events).ended = .dry ↔ ∀ e ∈ events, k.Passes e := by
  induction events generalizing k with
  | nil => simp [await]
  | cons e rest ih =>
    rw [List.forall_mem_cons]
    obtain hq | ⟨code, hq, hcode⟩ | hpass := k.event_cases e
    · rw [k.await_of_quit hq]
      exact ⟨nofun, fun h => absurd (h.1.1.symm.trans hq) Bool.false_ne_true⟩
    · rw [k.await_of_key hq hcode]
      refine ⟨nofun, fun h => ?_⟩
      have hnone := h.1.2
      rw [hcode] at hnone
      cases hnone
    · rw [k.await_of_passes hpass, ih (k.apply e)]
      simp only [passes_apply, hpass, true_and]

theorem await_ended_eq_quit (events : List Event) :
    (k.await events).ended = .quit ↔
      ∃ before e after, events = before ++ e :: after ∧ (∀ b ∈ before, k.Passes b) ∧
        e.isQuit = true := by
  induction events generalizing k with
  | nil => simp [await]
  | cons e rest ih =>
    obtain hq | ⟨code, hq, hcode⟩ | hpass := k.event_cases e
    · rw [k.await_of_quit hq]
      exact ⟨fun _ => ⟨[], e, rest, rfl, nofun, hq⟩, fun _ => rfl⟩
    · rw [k.await_of_key hq hcode]
      refine ⟨nofun, ?_⟩
      rintro ⟨before, f, after, hsplit, hbefore, hf⟩
      -- the key itself stands in the way of any later request to quit
      cases before with
      | nil =>
        cases hsplit
        exact absurd (hq.symm.trans hf) Bool.false_ne_true
      | cons b before =>
        cases hsplit
        have hnone := (hbefore e (List.mem_cons_self ..)).2
        rw [hcode] at hnone
        cases hnone
    · rw [k.await_of_passes hpass, ih (k.apply e)]
      simp only [passes_apply]
      constructor
      · rintro ⟨before, f, after, rfl, hbefore, hf⟩
        exact ⟨e :: before, f, after, rfl, List.forall_mem_cons.2 ⟨hpass, hbefore⟩, hf⟩
      · rintro ⟨before, f, after, hsplit, hbefore, hf⟩
        cases before with
        | nil =>
          cases hsplit
          exact absurd (hpass.1.symm.trans hf) Bool.false_ne_true
        | cons b before =>
          cases hsplit
          exact ⟨before, f, after, rfl, (List.forall_mem_cons.1 hbefore).2, hf⟩

end Keypad

/-- The ways in which a wait for a key ends without one: nobody is there to report keys, what is
reported comes to an end before a key of the layout, or the user asks to quit before it. -/
inductive Session.Keyless (s : Session) : Halt → Prop
  | absent (hs : s.source = .absent) : s.Keyless (.fault .noKeySource)
  | script {names : List KeyName} (hs : s.source = .script names)
      (hnames : ∀ name ∈ names, s.machine.keypad.code? name = none) : s.Keyless .dry
  | queue (hs : s.source = .keyboard)
      (hqueue : ∀ e ∈ s.keyboard.queue, s.machine.keypad.Passes e) : s.Keyless .dry
  | quit {before after : List Event} {e : Event} (hs : s.source = .keyboard)
      (hqueue : s.keyboard.queue = before ++ e :: after)
      (hbefore : ∀ b ∈ before, s.machine.keypad.Passes b) (he : e.isQuit = true) :
      s.Keyless (.exit 0)

theorem Session.keyless_congr {s t : Session} {e : Halt} (hsource : t.source = s.source)
    (hkeyboard : t.keyboard = s.keyboard) (hkeypad : t.machine.keypad = s.machine.keypad) :
    t.Keyless e ↔ s.Keyless e := by
  have hall : ∀ {s t : Session}, t.source = s.source → t.keyboard = s.keyboard →
      t.machine.keypad = s.machine.keypad → s.Keyless e → t.Keyless e := by
    intro s t hsource hkeyboard hkeypad hs
    cases hs with
    | absent hs => exact .absent (hsource.trans hs)
    | script hs hnames => exact .script (hsource.trans hs) (hkeypad ▸ hnames)
    | queue hs hqueue => exact .queue (hsource.trans hs) (hkeyboard ▸ hkeypad ▸ hqueue)
    | quit hs hqueue hbefore he =>
      exact .quit (hsource.trans hs) (hkeyboard ▸ hqueue) (hkeypad ▸ hbefore) he
  exact ⟨hall hsource.symm hkeyboard.symm hkeypad.symm, hall hsource hkeyboard hkeypad⟩

theorem awaitKey_error_iff {s : Session} {e : Halt} :
    (∃ s', SessionM.awaitKey s = .error e s') ↔ s.Keyless e := by
  unfold SessionM.awaitKey
  constructor
  · rintro ⟨s', h⟩
    split at h
    · next hs =>
      cases h
      exact .absent hs
    · next names hs =>
      dsimp only at h
      split at h
      · cases h
      · next hfound =>
        cases h
        exact .script hs ((s.machine.keypad.search_found_eq_none names).1 hfound)
    · next hs =>
      dsimp only at h
      split at h
      · cases h
      · next hquit =>
        cases h
        obtain ⟨before, e, after, hqueue, hbefore, he⟩ :=
          (s.machine.keypad.await_ended_eq_quit _).1 hquit
        exact .quit hs hqueue hbefore he
      · next hdry =>
        cases h
        exact .queue hs ((s.machine.keypad.await_ended_eq_dry _).1 hdry)
  · intro h
    cases h with
    | absent hs =>
      rw [hs]
      exact ⟨_, rfl⟩
    | script hs hnames =>
      rw [hs]
      dsimp only
      rw [(s.machine.keypad.search_found_eq_none _).2 hnames]
      exact ⟨_, rfl⟩
    | queue hs hqueue =>
      rw [hs]
      dsimp only
      rw [(s.machine.keypad.await_ended_eq_dry _).2 hqueue]
      exact ⟨_, rfl⟩
    | quit hs hqueue hbefore he =>
      rw [hs]
      dsimp only
      rw [(s.machine.keypad.await_ended_eq_quit _).2 ⟨_, _, _, hqueue, hbefore, he⟩]
      exact ⟨_, rfl⟩

end ChipEight
