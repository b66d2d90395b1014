import ChipEight.Proofs.Ledger
import ChipEight.Proofs.Runs

/-! The cycle that waits for a key: it takes from the keyboard, or from a script, what comes before a key of
the layout, and the key itself, and nothing behind it. -/

namespace ChipEight

open Actions

theorem Keypad.foldl_layout {step : Keypad → Event → Keypad}
    (hstep : ∀ k e, (step k e).layout = k.layout) (k : Keypad) (events : List Event) :
    (events.foldl step k).layout = k.layout := by
  induction events generalizing k with
  | nil => rfl
  | cons e events ih => exact (ih (step k e)).trans (hstep k e)

theorem Keypad.applyAll_layout (k : Keypad) (events : List Event) :
    (k.applyAll events).layout = k.layout := by
  refine foldl_layout (fun k e => ?_) k events
  split
  · rfl
  · exact apply_layout e

namespace Session

section Layout

variable (s : Session) (h : Host)

theorem grant_layout (r : Request) :
    (s.grant r).machine.keypad.layout = s.machine.keypad.layout := by
  cases r with
  | stop => rfl
  | press name => exact Keypad.move_layout ..
  | release name => exact Keypad.move_layout ..

theorem accept_layout (r : Reply) :
    (s.accept r).machine.keypad.layout = s.machine.keypad.layout := by
  have hgrants : ∀ (rs : List Request) (t : Session),
      (rs.foldl grant t).machine.keypad.layout = t.machine.keypad.layout := by
    intro rs
    induction rs with
    | nil => exact fun _ => rfl
    | cons r rs ih => exact fun t => (ih (t.grant r)).trans (t.grant_layout r)
  unfold accept
  rw [hgrants]
  split <;> rfl

theorem tickTimers_layout :
    (s.tickTimers h).machine.keypad.layout = s.machine.keypad.layout := by
  have hbeep : ∀ t : Session, (t.beep h).machine.keypad.layout = t.machine.keypad.layout := by
    intro t
    unfold beep
    split
    · exact accept_layout _ _
    · rfl
  unfold tickTimers
  dsimp only
  split
  · exact hbeep _
  · rfl

theorem present_layout : (s.present h).machine.keypad.layout = s.machine.keypad.layout := by
  unfold present
  split
  · split
    · exact accept_layout _ _
    · rfl
  · rfl

end Layout

end Session

section Layout

def Machine.HasLayout (layout : List Char) (m : Machine) : Prop :=
  m.keypad.layout = layout

abbrev KeepsLayout {α : Type} (layout : List Char) (x : SessionM α) : Prop :=
  KeepsMachine (Machine.HasLayout layout) x

variable {α : Type} {x : SessionM α} {layout : List Char} (h : Host)

theorem Consumes.keepsLayout (hx : Consumes x) : KeepsLayout layout x := by
  intro s hs
  obtain ⟨taken, hconsumed⟩ := hx s
  have hlayout := s.machine.keypad.applyAll_layout taken
  rw [← hconsumed.keypad_eq] at hlayout
  exact hlayout.trans hs

theorem keepsLayout_of_loaded (hx : ∀ s : Session, Keeps s.Loaded x) : KeepsLayout layout x := by
  intro s hs
  obtain ⟨_, _, _, hleft⟩ := hx s s (.refl s)
  rw [hleft]
  exact hs

theorem cycle_keepsLayout : KeepsLayout layout (cycle h) := by
  have hconclude : KeepsLayout layout
      (modify fun s => (s.tickTimers h).present h : SessionM Unit) :=
    .modify fun s hs => (((s.tickTimers h).present_layout h).trans (s.tickTimers_layout h)).trans hs
  exact .bind (.modify fun _ hs => hs) fun _ =>
    .bind (fun _ hs => hs) fun _ =>
      .bind (ofExcept_keeps _) fun _ =>
        .bind (Machine.Invariant.decodeIntTraced_keeps h _) fun op =>
          .bind (execute_consumes h op).keepsLayout fun _ => .bind hconclude fun _ => .pure op

theorem runFor_keepsLayout (limit count : Nat) : KeepsLayout layout (runFor h limit count) := by
  induction limit generalizing count with
  | zero => exact .pure count
  | succ limit ih =>
    refine .bind (fun _ hs => hs) fun s => ?_
    split
    · exact .bind (cycle_keepsLayout h) fun _ => ih (count + 1)
    · exact .pure count

theorem action_keepsLayout (c : Call) : KeepsLayout layout (c.action h) := by
  cases c with
  | boot => exact .modify fun _ hs => hs
  | load values =>
    exact .bind (ofExcept_keeps _) fun program =>
      keepsLayout_of_loaded fun _ => Session.loadBytes_loaded program
  | loadFile path =>
    exact .bind (keepsLayout_of_loaded fun _ => Session.loadProgram_loaded h path) fun _ => .pure ()
  | press name => exact .modify fun s hs => (s.grant_layout (.press name)).trans hs
  | release name => exact .modify fun s hs => (s.grant_layout (.release name)).trans hs
  | fetch => exact .bind (fun _ hs => hs) fun _ => .bind (ofExcept_keeps _) fun _ => .pure ()
  | cycle => exact .bind (cycle_keepsLayout h) fun _ => .pure ()
  | execute v =>
    exact .bind (Machine.Invariant.decodeIntTraced_keeps h v) fun op =>
      (execute_consumes h op).keepsLayout
  | tick => exact .modify fun s hs => (s.tickTimers_layout h).trans hs
  | run limit =>
    exact .bind (.bind (.modify fun _ hs => hs) fun _ => .bind (runFor_keepsLayout h _ _)
      fun count => .bind (.modify fun _ hs => hs) fun _ => .pure count) fun _ => .pure ()
  | stop => exact .modify fun _ hs => hs
  | post events => exact .modify fun _ hs => hs
  | pump =>
    exact .bind (fun s hs => (s.machine.keypad.applyAll_layout _).trans hs) fun _ => .pure ()
  | poll => exact .bind poll_consumes.keepsLayout fun _ => .pure ()

theorem Session.Reachable.layout_eq {s : Session} (hs : s.Reachable) :
    s.machine.keypad.layout = Keypad.standardLayout := by
  obtain ⟨source, calls, rfl⟩ := hs
  have hafter : ((fresh source).after calls).machine.HasLayout Keypad.standardLayout :=
    after_induction (P := fun s => s.machine.HasLayout Keypad.standardLayout) rfl
      fun call _ => action_keepsLayout call.1 call.2
  exact hafter

end Layout

/-- An event that a wait for a key does not outlast: a request to quit, or a key of the standard layout that
goes down, whether it has been held before or not. -/
def Event.EndsWait (e : Event) : Prop :=
  e.isQuit = true ∨ ∃ i, e = .keyDown (Keypad.standardName i)

def Keypad.Named (name : KeyName) : Prop :=
  ∃ i, name = some (standardName i)

namespace Keypad

variable {k : Keypad}

theorem await_append (k : Keypad) {before : List Event} (hbefore : ∀ b ∈ before, k.Passes b)
    (rest : List Event) : k.await (before ++ rest) = (before.foldl apply k).await rest := by
  induction before generalizing k with
  | nil => rfl
  | cons b before ih =>
    rw [List.forall_mem_cons] at hbefore
    rw [List.cons_append, k.await_of_passes hbefore.1]
    exact ih (k.apply b) fun e he => k.passes_apply.2 (hbefore.2 e he)

theorem search_append {before : List KeyName} (hbefore : ∀ name ∈ before, k.code? name = none)
    (rest : List KeyName) :
    k.search (before ++ rest) =
      { k.search rest with polls := (k.search rest).polls + before.length } := by
  induction before with
  | nil => rfl
  | cons name before ih =>
    rw [List.forall_mem_cons] at hbefore
    rw [List.cons_append, search, hbefore.1]
    dsimp only
    rw [ih hbefore.2, List.length_cons, Nat.add_assoc]

section Standard

variable (hk : k.layout = standardLayout)
include hk

theorem code?_standardName (i : Nibble) : k.code? (some (standardName i)) = some i.toNat := by
  rw [code?, hk]
  exact lastPlace?_standardName i

theorem code?_of_unnamed {name : KeyName} (hname : ¬ Named name) : k.code? name = none := by
  cases name with
  | none => rfl
  | some id =>
    rw [code?, hk]
    cases hplace : lastPlace? id standardLayout with
    | none => rfl
    | some n =>
      obtain ⟨i, -, hid⟩ := lastPlace?_standard hplace
      exact absurd ⟨i, congrArg some hid⟩ hname

theorem passes_of_not_endsWait {e : Event} (he : ¬ e.EndsWait) : k.Passes e := by
  have hquit : e.isQuit = false := Bool.eq_false_iff.2 fun hquit => he (.inl hquit)
  refine ⟨hquit, code?_of_unnamed hk ?_⟩
  rintro ⟨i, hname⟩
  cases e with
  | keyDown key => exact he (.inr ⟨i, congrArg Event.keyDown (Option.some.inj hname)⟩)
  | keyUp | close | other => cases hname

section Queue

variable {before : List Event} (hbefore : ∀ b ∈ before, ¬ b.EndsWait)
include hbefore

theorem await_before (rest : List Event) :
    k.await (before ++ rest) = (before.foldl apply k).await rest :=
  k.await_append (fun b hb => passes_of_not_endsWait hk (hbefore b hb)) rest

theorem await_key (i : Nibble) (after : List Event) :
    k.await (before ++ .keyDown (standardName i) :: after) =
      ⟨.key i.toNat, (before ++ [Event.keyDown (standardName i)]).foldl apply k, after⟩ := by
  have hquit : (Event.keyDown (standardName i)).isQuit = false :=
    decide_eq_false (standardName_ne_escape i)
  have hcode : (before.foldl apply k).code? (reported (.keyDown (standardName i))) = some i.toNat :=
    code?_standardName ((foldl_layout (fun _ => apply_layout) k before).trans hk) i
  rw [await_before hk hbefore, await_of_key _ hquit hcode, List.foldl_append]
  rfl

theorem await_quit {e : Event} (he : e.isQuit = true) (after : List Event) :
    k.await (before ++ e :: after) = ⟨.quit, before.foldl apply k, after⟩ := by
  rw [await_before hk hbefore, await_of_quit _ he]

theorem await_dry : k.await before = ⟨.dry, before.foldl apply k, []⟩ := by
  have hall := await_before hk hbefore []
  rwa [List.append_nil] at hall

end Queue

section Script

variable {before : List KeyName} (hbefore : ∀ name ∈ before, ¬ Named name)
include hbefore

theorem search_key (i : Nibble) (after : List KeyName) :
    k.search (before ++ some (standardName i) :: after) =
      ⟨some i.toNat, before.length + 1, after⟩ := by
  rw [search_append fun name hname => code?_of_unnamed hk (hbefore name hname), search,
    code?_standardName hk]
  dsimp only
  rw [Nat.add_comm]

theorem search_dry : k.search before = ⟨none, before.length + 1, []⟩ := by
  have hall := search_append (k := k)
    (fun name hname => code?_of_unnamed hk (hbefore name hname)) []
  rw [List.append_nil, search] at hall
  rw [hall, Nat.add_comm]

end Script

end Standard

end Keypad

namespace Machine

def waiting (m : Machine) : Machine :=
  { m with dirty := false, current := m.counter, counter := m.counter + 2 }

def received (m : Machine) (x i : Nibble) : Machine :=
  { m.waiting.setV x (i.setWidth 8) with delay := m.delay.tick, sound := m.sound.tick }

variable (m : Machine) {op : Opcode} (hop : op.form = .waitKey)
include hop

theorem enter_waiting : ({ m with dirty := false } : Machine).enter op = m.waiting := by
  unfold enter
  rw [hop]
  rfl

theorem effect_of_waitKey (i : Nibble) :
    m.effect op (i.toNat : Int) = m.setV op.x (i.setWidth 8) := by
  have hcode : BitVec.ofInt 4 (i.toNat : Int) = i := by
    rw [BitVec.ofInt_natCast, BitVec.ofNat_toNat, BitVec.setWidth_eq]
  simp only [effect, hop, hcode]

theorem fault?_of_waitKey : m.fault? op = none := by
  simp only [fault?, hop]

end Machine

namespace Session

def facing (s : Session) (queue : List Event) : Session :=
  { s with source := .keyboard, keyboard := { s.keyboard with queue := queue } }

def reading (s : Session) (names : List KeyName) : Session :=
  { s with source := .script names }

/-- The cycle is completed with a key. Hooks may be called after that, and only they can still move keys. -/
structure Receives (s : Session) (h : Host) (op : Opcode) (i : Nibble) (keypad : Keypad)
    (t : Session) : Prop where
  completed : cycle h s = .ok op t
  machine : (s.machine.received op.x i).Touched t.machine
  keypad_eq : h.LeavesKeys → t.machine.keypad = keypad
  asked_eq : t.asked = s.asked

/-- The cycle halts while it waits: no register has changed, no timer has ticked, and no hook has been
called. -/
structure Gives (s : Session) (h : Host) (e : Halt) (keypad : Keypad) (t : Session) : Prop where
  halted : cycle h s = .error e t
  machine_eq : t.machine = { s.machine.waiting with keypad := keypad }
  called_eq : t.beeps = s.beeps ∧ t.frames = s.frames ∧ t.asked = s.asked

structure WaitsOnQueue (s : Session) (h : Host) (op : Opcode) : Prop where
  key : ∀ before i after, (∀ b ∈ before, ¬ b.EndsWait) →
    ∃ t, (s.facing (before ++ .keyDown (Keypad.standardName i) :: after)).Receives h op i
        ((before ++ [.keyDown (Keypad.standardName i)]).foldl Keypad.apply s.machine.keypad) t ∧
      t.keyboard = { s.keyboard with queue := after }
  quit : ∀ before e after, (∀ b ∈ before, ¬ b.EndsWait) → e.isQuit = true →
    ∃ t, (s.facing (before ++ e :: after)).Gives h (.exit 0)
        (before.foldl Keypad.apply s.machine.keypad) t ∧
      t.keyboard = { s.keyboard with queue := after }
  dry : ∀ queue, (∀ e ∈ queue, ¬ e.EndsWait) →
    ∃ t, (s.facing queue).Gives h .dry (queue.foldl Keypad.apply s.machine.keypad) t ∧
      t.keyboard = { s.keyboard with queue := [] }

structure WaitsOnScript (s : Session) (h : Host) (op : Opcode) : Prop where
  key : ∀ before i after, (∀ name ∈ before, ¬ Keypad.Named name) →
    ∃ t, (s.reading (before ++ some (Keypad.standardName i) :: after)).Receives h op i
        s.machine.keypad t ∧
      t.source = .script after ∧ t.polls = s.polls + (before.length + 1)
  dry : ∀ names, (∀ name ∈ names, ¬ Keypad.Named name) →
    ∃ t, (s.reading names).Gives h .dry s.machine.keypad t ∧
      t.source = .script [] ∧ t.polls = s.polls + (names.length + 1)

section Waiting

variable {s : Session} {h : Host} {op : Opcode}

theorem begun_waiting (s : Session) (h : Host) (hop : op.form = .waitKey) :
    ∃ printed, s.begun h op = { s with machine := s.machine.waiting, printed := printed } := by
  have hmachine : (s.begun h op).machine = s.machine.waiting :=
    (s.begun_machine h op).trans (s.machine.enter_waiting hop)
  refine ⟨(s.begun h op).printed, ?_⟩
  rw [← hmachine]
  unfold begun announced
  rw [trace_eq]
  rfl

theorem concluded_apart (s : Session) (h : Host) (op : Opcode) (answer : Int) :
    (s.concluded h op answer).source = s.source ∧ (s.concluded h op answer).polls = s.polls ∧
      (s.concluded h op answer).keyboard = s.keyboard ∧
      (s.concluded h op answer).asked = s.asked := by
  unfold concluded
  rw [present_eq, tickTimers_eq, trace_eq]
  exact ⟨rfl, rfl, rfl, rfl⟩

theorem concluded_keypad (s : Session) (op : Opcode) (answer : Int) (hh : h.LeavesKeys) :
    (s.concluded h op answer).machine.keypad = s.machine.keypad := by
  unfold concluded
  rw [present_keypad _ hh, tickTimers_keypad _ hh, trace_machine]
  exact Machine.effect_keypad ..

variable (hop : op.form = .waitKey)
include hop

theorem receives_of_answered {i : Nibble} {keypad : Keypad} {s₁ : Session} (hnext : s.machine.Next op)
    (ha : SessionM.awaitKey (s.begun h op) = .ok (i.toNat : Int) s₁)
    (hmachine : s₁.machine = { s.machine.waiting with keypad := keypad })
    (hasked : s₁.asked = s.asked) :
    s.Receives h op i keypad (s₁.concluded h op i.toNat) := by
  obtain ⟨hc, hd⟩ := Machine.next_iff.1 hnext
  have hanswered : answerTo h op.form (s.begun h op) = .ok (i.toNat : Int) s₁ := by
    rw [hop]
    exact ha
  have hcompletes : Completes h s op i.toNat s₁ :=
    ⟨hc, hd, hanswered, s₁.machine.fault?_of_waitKey hop⟩
  refine ⟨hcompletes.cycle_eq, ?_, fun hh => ?_, ?_⟩
  · refine Machine.Touched.trans ⟨keypad, s.machine.running, ?_⟩ (s₁.concluded_touched h op i.toNat)
    rw [s₁.machine.effect_of_waitKey hop, hmachine]
    rfl
  · rw [concluded_keypad _ _ _ hh, hmachine]
  · exact (s₁.concluded_apart h op _).2.2.2.trans hasked

theorem gives_of_halted {e : Halt} {keypad : Keypad} {s₁ : Session} (hnext : s.machine.Next op)
    (ha : SessionM.awaitKey (s.begun h op) = .error e s₁)
    (hmachine : s₁.machine = { s.machine.waiting with keypad := keypad })
    (hcalled : s₁.beeps = s.beeps ∧ s₁.frames = s.frames ∧ s₁.asked = s.asked) :
    s.Gives h e keypad s₁ := by
  obtain ⟨hc, hd⟩ := Machine.next_iff.1 hnext
  have hanswered : answerTo h op.form (s.begun h op) = .error e s₁ := by
    rw [hop]
    exact ha
  exact ⟨(Halts.answer hc hd hanswered).cycle_eq, hmachine, hcalled⟩

theorem awaitKey_facing (s : Session) (h : Host) (queue : List Event) {w : Wait}
    (hw : s.machine.keypad.await queue = w) :
    ∃ t, (SessionM.awaitKey ((s.facing queue).begun h op) =
        match w.ended with
        | .key code => .ok (code : Int) t
        | .quit => .error (.exit 0) t
        | .dry => .error .dry t) ∧
      t.machine = { s.machine.waiting with keypad := w.keypad } ∧
      (t.beeps = s.beeps ∧ t.frames = s.frames ∧ t.asked = s.asked) ∧
      t.keyboard = { s.keyboard with queue := w.rest } := by
  obtain ⟨printed, hbegun⟩ := (s.facing queue).begun_waiting h hop
  subst hw
  rw [hbegun, awaitKey_of_keyboard _ rfl]
  exact ⟨_, rfl, rfl, ⟨rfl, rfl, rfl⟩, rfl⟩

theorem awaitKey_reading (s : Session) (h : Host) (names : List KeyName) {found : Keypad.Search}
    (hfound : s.machine.keypad.search names = found) :
    ∃ t, (SessionM.awaitKey ((s.reading names).begun h op) =
        match found.found with
        | some code => .ok (code : Int) t
        | none => .error .dry t) ∧
      t.machine = s.machine.waiting ∧
      (t.beeps = s.beeps ∧ t.frames = s.frames ∧ t.asked = s.asked) ∧
      t.source = .script found.rest ∧ t.polls = s.polls + found.polls := by
  obtain ⟨printed, hbegun⟩ := (s.reading names).begun_waiting h hop
  subst hfound
  rw [hbegun, awaitKey_of_script rfl]
  exact ⟨_, rfl, rfl, ⟨rfl, rfl, rfl⟩, rfl, rfl⟩

variable (hk : s.machine.keypad.layout = Keypad.standardLayout) (hnext : s.machine.Next op)
include hk hnext

theorem waitsOnQueue : s.WaitsOnQueue h op where
  key before i after hbefore := by
    obtain ⟨s₁, ha, hmachine, hcalled, hkeyboard⟩ := awaitKey_facing hop s h _
      (Keypad.await_key hk hbefore i after)
    refine ⟨_, receives_of_answered hop hnext ha hmachine hcalled.2.2, ?_⟩
    exact (s₁.concluded_apart h op _).2.2.1.trans hkeyboard
  quit before e after hbefore he := by
    obtain ⟨s₁, ha, hmachine, hcalled, hkeyboard⟩ := awaitKey_facing hop s h _
      (Keypad.await_quit hk hbefore he after)
    exact ⟨s₁, gives_of_halted hop hnext ha hmachine hcalled, hkeyboard⟩
  dry queue hqueue := by
    obtain ⟨s₁, ha, hmachine, hcalled, hkeyboard⟩ := awaitKey_facing hop s h _
      (Keypad.await_dry hk hqueue)
    exact ⟨s₁, gives_of_halted hop hnext ha hmachine hcalled, hkeyboard⟩

theorem waitsOnScript : s.WaitsOnScript h op where
  key before i after hbefore := by
    obtain ⟨s₁, ha, hmachine, hcalled, hsource, hpolls⟩ := awaitKey_reading hop s h _
      (Keypad.search_key hk hbefore i after)
    obtain ⟨hsource', hpolls', -, -⟩ := s₁.concluded_apart h op i.toNat
    exact ⟨_, receives_of_answered hop hnext ha hmachine hcalled.2.2, hsource'.trans hsource,
      hpolls'.trans hpolls⟩
  dry names hnames := by
    obtain ⟨s₁, ha, hmachine, hcalled, hsource, hpolls⟩ := awaitKey_reading hop s h _
      (Keypad.search_dry hk hnames)
    exact ⟨s₁, gives_of_halted hop hnext ha hmachine hcalled, hsource, hpolls⟩

end Waiting

/-- A wait for a key takes what comes before the first key of the layout, and that key. -/
theorem Reachable.waits_for_first_key {s : Session} {h : Host} {op : Opcode} (hs : s.Reachable)
    (hnext : s.machine.Next op) (hop : op.form = .waitKey) :
    s.WaitsOnQueue h op ∧ s.WaitsOnScript h op :=
  ⟨waitsOnQueue hop hs.layout_eq hnext, waitsOnScript hop hs.layout_eq hnext⟩

def idleEvents : List Event :=
  [.keyUp (Keypad.standardName 5), .other, .keyDown "space"]

theorem idleEvents_pass : ∀ e ∈ idleEvents, ¬ e.EndsWait := by
  have hspace : ∀ i, "space" ≠ Keypad.standardName i := by
    intro i hname
    have hlength := congrArg String.length hname
    rw [Keypad.standardName, String.length_singleton] at hlength
    exact absurd hlength (by decide)
  intro e he
  simp only [idleEvents, List.mem_cons, List.not_mem_nil, or_false] at he
  rintro (hquit | ⟨i, hdown⟩)
  · obtain rfl | rfl | rfl := he <;> exact absurd hquit (by decide)
  · obtain rfl | rfl | rfl := he
    · cases hdown
    · cases hdown
    · exact hspace i (Event.keyDown.inj hdown)

theorem awaiting_first_key :
    awaiting.Reachable ∧ awaiting.machine.Next ⟨0xF00A, .waitKey⟩ ∧
      ∃ t, cycle .quiet (awaiting.facing
          (idleEvents ++ .keyDown (Keypad.standardName 5) :: [.close])) = .ok ⟨0xF00A, .waitKey⟩ t ∧
        t.machine.v 0 = 5 ∧ t.machine.counter = 514 ∧ t.keyboard.queue = [.close] := by
  have hreachable : awaiting.Reachable :=
    ⟨.keyboard, _, rfl⟩
  have hnext : awaiting.machine.Next ⟨0xF00A, .waitKey⟩ :=
    started_next .keyboard (by decide) (by decide) rfl
  have hwaits := (hreachable.waits_for_first_key (h := .quiet) hnext rfl).1
  obtain ⟨t, hreceives, hkeyboard⟩ := hwaits.key idleEvents 5 [.close] idleEvents_pass
  obtain ⟨_, _, hmachine⟩ := hreceives.machine
  refine ⟨hreachable, hnext, t, hreceives.completed, ?_, ?_, ?_⟩
  · rw [hmachine]
    rfl
  · rw [hmachine]
    show awaiting.machine.counter + 2 = 514
    rw [awaiting, started_counter .keyboard (by decide)]
    rfl
  · rw [hkeyboard]

end Session

end ChipEight
