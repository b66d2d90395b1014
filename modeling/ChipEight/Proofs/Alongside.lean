import ChipEight.Proofs.Ledger
import ChipEight.Proofs.Notices

/-! A cycle of two machines that are alike but for what no instruction reads: the sound timer, the address of
the current instruction, and the marks for drawing and running. -/

namespace ChipEight

open Actions

namespace Machine

/-- The machines are alike in all that a program can find out. -/
structure Agrees (m m' : Machine) : Prop where
  memory_eq : m'.memory = m.memory
  registers_eq : m'.registers = m.registers
  index_eq : m'.index = m.index
  counter_eq : m'.counter = m.counter
  stack_eq : m'.stack = m.stack
  delay_eq : m'.delay = m.delay
  screen_eq : m'.screen = m.screen
  keypad_eq : m'.keypad = m.keypad

def Twins (m m' : Machine) : Prop :=
  ∃ sound current running,
    m' = { m with sound := sound, current := current, running := running }

variable {m m' : Machine}

theorem Agrees.twins (h : m.Agrees m') (dirty : Bool) :
    Twins { m with dirty := dirty } { m' with dirty := dirty } := by
  refine ⟨m'.sound, m'.current, m'.running, ?_⟩
  rw [← h.memory_eq, ← h.registers_eq, ← h.index_eq, ← h.counter_eq, ← h.stack_eq, ← h.delay_eq,
    ← h.screen_eq, ← h.keypad_eq]

theorem effect_sound (m : Machine) (op : Opcode) (answer : Int) (sound : Timer) :
    ∃ sound', ({ m with sound := sound } : Machine).effect op answer =
      { m.effect op answer with sound := sound' } := by
  have hskip : ∀ condition, ({ m with sound := sound } : Machine).skipIf condition =
      { m.skipIf condition with sound := sound } := by
    intro condition
    cases condition <;> rfl
  unfold effect
  cases op.form with
  | skipEqImm | skipNeImm | skipEqReg | skipNeReg | skipIfPressed | skipIfNotPressed =>
    exact ⟨sound, hskip _⟩
  | call =>
    dsimp only
    cases m.stack.push m.counter.toNat <;> exact ⟨sound, rfl⟩
  | ret =>
    dsimp only
    cases m.stack.pop <;> exact ⟨sound, rfl⟩
  | setSound => exact ⟨⟨m.v op.x⟩, rfl⟩
  | draw =>
    have hrows : ({ m with sound := sound } : Machine).visibleRows op = m.visibleRows op := rfl
    have hbeyond : ∀ count, ({ m with sound := sound } : Machine).beyond? count = m.beyond? count :=
      fun _ => rfl
    refine ⟨sound, ?_⟩
    simp only [drawEffect, drawn, setV, hrows, hbeyond]
    rfl
  | _ => exact ⟨sound, rfl⟩

namespace Twins

theorem agrees (h : m.Twins m') : m.Agrees m' := by
  obtain ⟨_, _, _, rfl⟩ := h
  exact ⟨rfl, rfl, rfl, rfl, rfl, rfl, rfl, rfl⟩

theorem enter (h : m.Twins m') (op : Opcode) : (m.enter op).Twins (m'.enter op) := by
  obtain ⟨sound, _, running, rfl⟩ := h
  refine ⟨sound, m.counter, running, ?_⟩
  rw [enter_eq, enter_eq]

theorem effect (h : m.Twins m') (op : Opcode) (answer : Int) :
    (m.effect op answer).Twins (m'.effect op answer) := by
  obtain ⟨sound, current, running, rfl⟩ := h
  obtain ⟨sound', hsound⟩ := m.effect_sound op answer sound
  have happart := ({ m with sound := sound } : Machine).effect_apart op answer running current
  rw [hsound] at happart
  exact ⟨sound', current, running, happart⟩

theorem fault?_eq (h : m.Twins m') (op : Opcode) : m'.fault? op = m.fault? op := by
  obtain ⟨_, _, _, rfl⟩ := h
  exact fault?_congr op rfl rfl rfl

theorem withKeypad (h : m.Twins m') (keypad : Keypad) :
    Twins { m with keypad := keypad } { m' with keypad := keypad } := by
  obtain ⟨sound, current, running, rfl⟩ := h
  exact ⟨sound, current, running, rfl⟩

end Twins

end Machine

/-- What passes between a machine and its surroundings, but for the sounds: the random numbers that it asks
for, the polls for a key, the frame that it has shown, and the trace. -/
structure Exchange where
  asked : List (Int × Int)
  polls : Nat
  frame : Option Frame
  traced : List Chunk

namespace Session

structure Exchanges (s : Session) (x : Exchange) (s' : Session) : Prop where
  asked_eq : s'.asked.toList = s.asked.toList ++ x.asked
  polls_eq : s'.polls = s.polls + x.polls
  frames_eq : s'.frames = s.frames + if x.frame.isSome then 1 else 0
  shown_eq : s'.shown = x.frame.or s.shown
  traces_eq : s'.traces = s.traces ++ x.traced

theorem Exchanges.refl (s : Session) : s.Exchanges ⟨[], 0, none, []⟩ s :=
  ⟨(List.append_nil _).symm, rfl, rfl, rfl, (List.append_nil _).symm⟩

theorem Exchanges.asked_size {s s' : Session} {x : Exchange} (hx : s.Exchanges x s') :
    s'.asked.size = s.asked.size + x.asked.length := by
  rw [← Array.length_toList, hx.asked_eq, List.length_append, Array.length_toList]

section Replies

variable {h h' : Host} {s t : Session}

theorem accept_keypad_congr (hkeypad : t.machine.keypad = s.machine.keypad) {r r' : Reply}
    (hrequests : r'.requests = r.requests) :
    (t.accept r').machine.keypad = (s.accept r).machine.keypad := by
  have hgrants : ∀ (rs : List Request) {s t : Session}, t.machine.keypad = s.machine.keypad →
      (rs.foldl grant t).machine.keypad = (rs.foldl grant s).machine.keypad := by
    intro rs
    induction rs with
    | nil => exact fun hst => hst
    | cons r rs ih =>
      intro s t hst
      refine ih ?_
      cases r with
      | stop => exact hst
      | press name => exact congrArg (Keypad.press · name) hst
      | release name => exact congrArg (Keypad.release · name) hst
  unfold accept
  rw [hrequests]
  refine hgrants r.requests ?_
  split <;> split <;> exact hkeypad

theorem present_keypad_of_shown {renderer : Nat → Frame → Reply} (hr : h.renderer = some renderer)
    (hshown : s.isShown h = true) :
    (s.present h).machine.keypad =
      (Session.accept { s with frames := s.frames + 1, shown := some s.machine.screen }
        (renderer s.frames s.machine.screen)).machine.keypad := by
  rw [isShown, hr, Option.isSome_some, Bool.and_true] at hshown
  unfold Session.present
  rw [hr]
  dsimp only
  rw [if_pos hshown]
  rfl

theorem present_keypad_of_not_shown (hshown : s.isShown h = false) :
    (s.present h).machine.keypad = s.machine.keypad := by
  unfold Session.present
  cases hr : h.renderer with
  | none => rfl
  | some renderer =>
    rw [isShown, hr, Option.isSome_some, Bool.and_true] at hshown
    dsimp only
    rw [if_neg (Bool.eq_false_iff.1 hshown)]

theorem present_keypad_congr (hkeypad : t.machine.keypad = s.machine.keypad)
    (hscreen : t.machine.screen = s.machine.screen) (hshown : t.isShown h' = s.isShown h)
    (hrequests : ∀ renderer renderer', h.renderer = some renderer → h'.renderer = some renderer' →
      (renderer' t.frames s.machine.screen).requests =
        (renderer s.frames s.machine.screen).requests) :
    (t.present h').machine.keypad = (s.present h).machine.keypad := by
  have hsome : ∀ {h : Host} {u : Session}, u.isShown h = true → ∃ renderer, h.renderer = some renderer :=
    fun hu => Option.isSome_iff_exists.1 (Bool.and_eq_true_iff.1 hu).2
  cases hs : s.isShown h with
  | false =>
    rw [present_keypad_of_not_shown hs, present_keypad_of_not_shown (hshown.trans hs), hkeypad]
  | true =>
    obtain ⟨renderer, hr⟩ := hsome hs
    obtain ⟨renderer', hr'⟩ := hsome (hshown.trans hs)
    rw [present_keypad_of_shown hr hs, present_keypad_of_shown hr' (hshown.trans hs), hscreen]
    refine accept_keypad_congr ?_ (hrequests renderer renderer' hr hr')
    exact hkeypad

end Replies

theorem Exchanges.regardless {s s' : Session} {x : Exchange} (hx : s.Exchanges x s')
    (machine : Machine) (source : KeySource) (keyboard : Keyboard) :
    s.Exchanges x { s' with machine := machine, source := source, keyboard := keyboard } :=
  ⟨hx.asked_eq, hx.polls_eq, hx.frames_eq, hx.shown_eq, hx.traces_eq⟩

structure Alongside (s t s' t' : Session) : Prop where
  agrees : s'.machine.Agrees t'.machine
  source_eq : t'.source = s'.source
  keyboard_eq : t'.keyboard = s'.keyboard
  exchanges : ∃ x, s.Exchanges x s' ∧ t.Exchanges x t'

structure Abreast (s t s' t' : Session) : Prop where
  twins : s'.machine.Twins t'.machine
  source_eq : t'.source = s'.source
  keyboard_eq : t'.keyboard = s'.keyboard
  exchanges : ∃ x, x.frame = none ∧ s.Exchanges x s' ∧ t.Exchanges x t'

end Session

/-- The same is in store for both sessions: random numbers, keys, and what the renderers ask for. The beepers,
which need not be called in both alike, move no keys. -/
structure SameSurroundings (h : Host) (s : Session) (h' : Host) (t : Session) : Prop where
  tracing_eq : h'.tracing = h.tracing
  random_eq : ∀ n, h'.random (t.asked.size + n) = h.random (s.asked.size + n)
  source_eq : t.source = s.source
  keyboard_eq : t.keyboard = s.keyboard
  renderer_isSome : h'.renderer.isSome = h.renderer.isSome
  renderer_requests : ∀ renderer renderer', h.renderer = some renderer → h'.renderer = some renderer' →
    ∀ n frame, (renderer' (t.frames + n) frame).requests = (renderer (s.frames + n) frame).requests
  beeper_stops : ∀ beeper, h.beeper = some beeper → ∀ n, ∀ r ∈ (beeper n).requests, r = .stop
  beeper_stops' : ∀ beeper, h'.beeper = some beeper → ∀ n, ∀ r ∈ (beeper n).requests, r = .stop

inductive Paired {α : Type} (R : Session → Session → Prop) :
    EStateM.Result Halt Session α → EStateM.Result Halt Session α → Prop
  | ok {a : α} {s t : Session} (hst : R s t) : Paired R (.ok a s) (.ok a t)
  | error {e : Halt} {s t : Session} (hst : R s t) : Paired R (.error e s) (.error e t)

theorem Paired.map {α β : Type} {R : Session → Session → Prop} {x y : SessionM α} {s t : Session}
    (hxy : Paired R (x s) (y t)) (g : α → β) :
    Paired R ((x >>= fun a => pure (g a)) s) ((y >>= fun a => pure (g a)) t) := by
  rw [bind_apply, bind_apply]
  generalize x s = result at hxy
  generalize y t = result' at hxy
  cases hxy with
  | ok hst => exact .ok hst
  | error hst => exact .error hst

namespace Session.Abreast

variable {h h' : Host} {s t s' t' : Session}

theorem alongside (hst : Abreast s t s' t') : Alongside s t s' t' := by
  obtain ⟨x, -, hs, ht⟩ := hst.exchanges
  exact ⟨hst.twins.agrees, hst.source_eq, hst.keyboard_eq, x, hs, ht⟩

theorem onMachine (hst : Abreast s t s' t') {f : Machine → Machine}
    (hf : (f s'.machine).Twins (f t'.machine)) :
    Abreast s t (s'.onMachine f) (t'.onMachine f) := by
  obtain ⟨x, hx, hs, ht⟩ := hst.exchanges
  exact ⟨hf, hst.source_eq, hst.keyboard_eq, x, hx, hs.regardless _ _ _,
    ht.regardless _ _ _⟩

theorem affected (hst : Abreast s t s' t') (op : Opcode) (answer : Int) :
    Abreast s t (s'.affected op answer) (t'.affected op answer) :=
  hst.onMachine (f := fun m => m.effect op answer) (hst.twins.effect op answer)

theorem cleared (hagrees : s.machine.Agrees t.machine) (hsame : SameSurroundings h s h' t) :
    Abreast s t s.cleared t.cleared := by
  have hs := Exchanges.refl s
  have ht := Exchanges.refl t
  exact ⟨hagrees.twins false, hsame.source_eq, hsame.keyboard_eq, _, rfl,
    hs.regardless _ _ _, ht.regardless _ _ _⟩

theorem trace (hst : Abreast s t s' t') (htracing : h'.tracing = h.tracing) (text : String) :
    Abreast s t (s'.trace h text) (t'.trace h' text) := by
  obtain ⟨x, hx, hs, ht⟩ := hst.exchanges
  have htraces : ∀ (h : Host) (u : Session), (u.trace h text).traces =
      u.traces ++ if h.tracing then [.trace text] else [] := by
    intro h u
    unfold Session.trace
    split
    · have hone : [Chunk.trace text].filter Chunk.isTrace = [.trace text] := rfl
      rw [traces, traces, print, Array.toList_push, List.filter_append, hone]
    · exact (List.append_nil _).symm
  have hleft : ∀ {h : Host} {u u' : Session}, u.Exchanges x u' →
      u.Exchanges { x with traced := x.traced ++ if h.tracing then [.trace text] else [] }
        (u'.trace h text) := by
    intro h u u' hu
    have htraced : (u'.trace h text).traces =
        u.traces ++ (x.traced ++ if h.tracing then [.trace text] else []) := by
      rw [htraces, hu.traces_eq, List.append_assoc]
    rw [trace_eq] at htraced ⊢
    exact ⟨hu.asked_eq, hu.polls_eq, hu.frames_eq, hu.shown_eq, htraced⟩
  have ht' := hleft (h := h') ht
  rw [htracing] at ht'
  refine ⟨?_, ?_, ?_, { x with traced := x.traced ++ if h.tracing then [.trace text] else [] }, hx,
    hleft hs, ht'⟩
  · rw [trace_machine, trace_machine]
    exact hst.twins
  · rw [trace_source, trace_source]
    exact hst.source_eq
  · rw [trace_keyboard, trace_keyboard]
    exact hst.keyboard_eq

theorem withKeys (hst : Abreast s t s' t') (keypad : Keypad) (queue : List Event) :
    Abreast s t (s'.withKeys keypad queue) (t'.withKeys keypad queue) := by
  obtain ⟨x, hx, hs, ht⟩ := hst.exchanges
  have hkeyboard : { t'.keyboard with queue := queue } = { s'.keyboard with queue := queue } := by
    rw [hst.keyboard_eq]
  exact ⟨hst.twins.withKeypad keypad, hst.source_eq, hkeyboard, x, hx,
    hs.regardless _ _ _, ht.regardless _ _ _⟩

theorem polled (hst : Abreast s t s' t') (found : Keypad.Search) :
    Abreast s t (s'.polled found) (t'.polled found) := by
  obtain ⟨x, hx, hs, ht⟩ := hst.exchanges
  have hpolls : ∀ {u u' : Session}, u.Exchanges x u' →
      u.Exchanges { x with polls := x.polls + found.polls } (u'.polled found) := by
    intro u u' hu
    have hsum : u'.polls + found.polls = u.polls + (x.polls + found.polls) := by
      rw [hu.polls_eq, Nat.add_assoc]
    exact ⟨hu.asked_eq, hsum, hu.frames_eq, hu.shown_eq, hu.traces_eq⟩
  exact ⟨hst.twins, rfl, hst.keyboard_eq, { x with polls := x.polls + found.polls }, hx, hpolls hs,
    hpolls ht⟩

theorem asked (hst : Abreast s t s' t') (low high : Int) :
    Abreast s t { s' with asked := s'.asked.push (low, high) }
      { t' with asked := t'.asked.push (low, high) } := by
  obtain ⟨x, hx, hs, ht⟩ := hst.exchanges
  have hasked : ∀ {u u' : Session}, u.Exchanges x u' →
      u.Exchanges { x with asked := x.asked ++ [(low, high)] }
        { u' with asked := u'.asked.push (low, high) } := by
    intro u u' hu
    have hpushed : (u'.asked.push (low, high)).toList =
        u.asked.toList ++ (x.asked ++ [(low, high)]) := by
      rw [Array.toList_push, hu.asked_eq, List.append_assoc]
    exact ⟨hpushed, hu.polls_eq, hu.frames_eq, hu.shown_eq, hu.traces_eq⟩
  exact ⟨hst.twins, hst.source_eq, hst.keyboard_eq, { x with asked := x.asked ++ [(low, high)] }, hx,
    hasked hs, hasked ht⟩

theorem awaitKey (hst : Abreast s t s' t') :
    Paired (Abreast s t) (SessionM.awaitKey s') (SessionM.awaitKey t') := by
  have hkeypad : t'.machine.keypad = s'.machine.keypad := hst.twins.agrees.keypad_eq
  have hsource := hst.source_eq
  cases hs : s'.source with
  | absent =>
    rw [hs] at hsource
    rw [awaitKey_of_absent hs, awaitKey_of_absent hsource]
    exact .error hst
  | script names =>
    rw [hs] at hsource
    rw [awaitKey_of_script hs, awaitKey_of_script hsource, hkeypad]
    cases (s'.machine.keypad.search names).found with
    | some code => exact .ok (hst.polled _)
    | none => exact .error (hst.polled _)
  | keyboard =>
    rw [hs] at hsource
    rw [awaitKey_of_keyboard s' hs, awaitKey_of_keyboard t' hsource, hkeypad, hst.keyboard_eq]
    dsimp only
    cases (s'.machine.keypad.await s'.keyboard.queue).ended with
    | key code => exact .ok (hst.withKeys _ _)
    | quit | dry => exact .error (hst.withKeys _ _)

section Surrounded

variable (hsame : SameSurroundings h s h' t)
include hsame

theorem answerTo (hst : Abreast s t s' t') (f : Form) :
    Paired (Abreast s t) (answerTo h f s') (answerTo h' f t') := by
  by_cases hkey : f = .waitKey
  · subst hkey
    exact hst.awaitKey
  · by_cases hrand : f = .rand
    · subst hrand
      obtain ⟨x, -, hs, ht⟩ := hst.exchanges
      have hrandom : h'.random t'.asked.size = h.random s'.asked.size := by
        rw [hs.asked_size, ht.asked_size, hsame.random_eq]
      show Paired _ (.ok (h.random s'.asked.size) _) (.ok (h'.random t'.asked.size) _)
      rw [hrandom]
      exact .ok (hst.asked 0 255)
    · rw [answerTo_of_ne hrand hkey, answerTo_of_ne hrand hkey]
      exact .ok hst

theorem tickTimers (hst : Abreast s t s' t') :
    Abreast s t (s'.tickTimers h) (t'.tickTimers h') := by
  obtain ⟨x, hx, hs, ht⟩ := hst.exchanges
  have hticked : ∀ {h : Host} {u u' : Session}, u.Exchanges x u' →
      u.Exchanges x (u'.tickTimers h) := by
    intro h u u' hu
    have htraces := (u'.traces_tickTimers h).trans hu.traces_eq
    rw [tickTimers_eq] at htraces ⊢
    exact ⟨hu.asked_eq, hu.polls_eq, hu.frames_eq, hu.shown_eq, htraces⟩
  have hmachine : ∀ {h : Host} (u : Session), (∀ beeper, h.beeper = some beeper →
      ∀ n, ∀ r ∈ (beeper n).requests, r = .stop) → ∃ running, (u.tickTimers h).machine =
        { u.machine with
          delay := u.machine.delay.tick
          sound := u.machine.sound.tick
          running := running } := by
    intro h u hstops
    obtain ⟨keypad, running, hu⟩ := u.tickTimers_touched h
    have hkeypad := u.tickTimers_keypad_of_stops hstops
    rw [hu] at hkeypad
    obtain rfl : keypad = u.machine.keypad := hkeypad
    exact ⟨running, hu⟩
  obtain ⟨running, hs'⟩ := hmachine s' hsame.beeper_stops
  obtain ⟨running', ht'⟩ := hmachine t' hsame.beeper_stops'
  refine ⟨?_, ?_, ?_, x, hx, hticked hs, hticked ht⟩
  · obtain ⟨sound, current, _, htwin⟩ := hst.twins
    rw [hs', ht', htwin]
    exact ⟨sound.tick, current, running', rfl⟩
  · rw [tickTimers_source, tickTimers_source]
    exact hst.source_eq
  · rw [tickTimers_keyboard, tickTimers_keyboard]
    exact hst.keyboard_eq

theorem present (hst : Abreast s t s' t') :
    Alongside s t (s'.present h) (t'.present h') := by
  obtain ⟨x, hx, hs, ht⟩ := hst.exchanges
  obtain ⟨_, _, _, htwin⟩ := hst.twins
  have hshown : t'.isShown h' = s'.isShown h := by
    rw [isShown, isShown, hsame.renderer_isSome, htwin]
  have hframes : ∀ {u u' : Session}, u.Exchanges x u' → u'.frames = u.frames := by
    intro u u' hu
    rw [hu.frames_eq, hx]
    rfl
  have hpresented : ∀ {h : Host} {u u' : Session}, u.Exchanges x u' →
      u.Exchanges { x with frame := if u'.isShown h then some u'.machine.screen else none }
        (u'.present h) := by
    intro h u u' hu
    have htraces := (u'.traces_present h).trans hu.traces_eq
    have hshow := hu.shown_eq
    rw [hx, Option.none_or] at hshow
    rw [present_eq] at htraces ⊢
    refine ⟨hu.asked_eq, hu.polls_eq, ?_, ?_, htraces⟩
    · rw [← hframes hu]
      cases u'.isShown h <;> rfl
    · rw [← hshow]
      cases u'.isShown h <;> rfl
  have ht' := hpresented (h := h') ht
  have hscreen : t'.machine.screen = s'.machine.screen := hst.twins.agrees.screen_eq
  rw [hshown, hscreen] at ht'
  refine ⟨?_, ?_, ?_, _, hpresented hs, ht'⟩
  · have hrequests : ∀ renderer renderer', h.renderer = some renderer →
        h'.renderer = some renderer' →
        (renderer' t'.frames s'.machine.screen).requests =
          (renderer s'.frames s'.machine.screen).requests := by
      intro renderer renderer' hr hr'
      rw [hframes hs, hframes ht]
      exact hsame.renderer_requests renderer renderer' hr hr' 0 s'.machine.screen
    have hagrees := hst.twins.agrees
    have hkeypad := present_keypad_congr hagrees.keypad_eq hagrees.screen_eq hshown hrequests
    obtain ⟨_, _, hs'⟩ := s'.present_touched h
    obtain ⟨_, _, ht'⟩ := t'.present_touched h'
    refine ⟨?_, ?_, ?_, ?_, ?_, ?_, ?_, hkeypad⟩
    all_goals rw [hs', ht']
    · exact hagrees.memory_eq
    · exact hagrees.registers_eq
    · exact hagrees.index_eq
    · exact hagrees.counter_eq
    · exact hagrees.stack_eq
    · exact hagrees.delay_eq
    · exact hagrees.screen_eq
  · rw [present_source, present_source]
    exact hst.source_eq
  · rw [present_keyboard, present_keyboard]
    exact hst.keyboard_eq

theorem concluded (hst : Abreast s t s' t') {op : Opcode} {answer : Int}
    (hcurrent : (t'.machine.effect op answer).current = (s'.machine.effect op answer).current) :
    Alongside s t (s'.concluded h op answer) (t'.concluded h' op answer) := by
  have htraced := (hst.affected op answer).trace hsame.tracing_eq
    (op.traceLine (s'.machine.effect op answer).current)
  unfold Session.concluded
  rw [hcurrent]
  exact (htraced.tickTimers hsame).present hsame

end Surrounded

end Session.Abreast

section Cycle

open Session

variable {h h' : Host} {s t : Session}

theorem current_of_begun {op : Opcode} {answer : Int} {s₁ : Session}
    (ha : answerTo h op.form (s.begun h op) = .ok answer s₁) :
    (s₁.machine.effect op answer).current = s.machine.counter := by
  have hcurrent := current_of_answered (s := s.announced h) ha
  rw [announced_machine] at hcurrent
  exact hcurrent

theorem cycle_paired (hagrees : s.machine.Agrees t.machine) (hsame : SameSurroundings h s h' t) :
    Paired (Alongside s t) (cycle h s) (cycle h' t) := by
  have hcounter := hagrees.counter_eq
  have hword : t.machine.word = s.machine.word := by
    rw [Machine.word, Machine.word, hagrees.memory_eq, hcounter]
  have hcleared := Abreast.cleared hagrees hsame
  by_cases hs : s.machine.counter = 4095
  · rw [cycle_of_last hs, cycle_of_last (hcounter.trans hs)]
    exact .error hcleared.alongside
  have ht : t.machine.counter ≠ 4095 := by rwa [hcounter]
  have hannounced : Abreast s t (s.announced h) (t.announced h') := by
    have htraced := hcleared.trace hsame.tracing_eq (Word.traceMark s.machine.word)
    rw [announced, announced, hword]
    exact htraced
  cases hd : decode s.machine.word with
  | error f =>
    have hd' : decode t.machine.word = .error f := by rw [hword, hd]
    rw [(Halts.decode hs hd).cycle_eq, (Halts.decode ht hd').cycle_eq]
    exact .error hannounced.alongside
  | ok op =>
    have hd' : decode t.machine.word = .ok op := by rw [hword, hd]
    have hbegun : Abreast s t (s.begun h op) (t.begun h' op) :=
      hannounced.onMachine (f := fun m => m.enter op) (hannounced.twins.enter op)
    have hanswered := hbegun.answerTo hsame op.form
    generalize ha : answerTo h op.form (s.begun h op) = result at hanswered
    generalize ha' : answerTo h' op.form (t.begun h' op) = result' at hanswered
    cases hanswered with
    | error hst =>
      rw [(Halts.answer hs hd ha).cycle_eq, (Halts.answer ht hd' ha').cycle_eq]
      exact .error hst.alongside
    | @ok answer s₁ t₁ hst =>
      have hfault := hst.twins.fault?_eq op
      cases hf : s₁.machine.fault? op with
      | some f =>
        rw [hf] at hfault
        rw [(Halts.perform hs hd ha hf).cycle_eq, (Halts.perform ht hd' ha' hfault).cycle_eq]
        exact .error (hst.affected op answer).alongside
      | none =>
        rw [hf] at hfault
        have hdone : Completes h s op answer s₁ := ⟨hs, hd, ha, hf⟩
        have hdone' : Completes h' t op answer t₁ := ⟨ht, hd', ha', hfault⟩
        rw [hdone.cycle_eq, hdone'.cycle_eq]
        refine .ok (hst.concluded hsame ?_)
        rw [current_of_begun ha, current_of_begun ha', hcounter]

end Cycle

end ChipEight
