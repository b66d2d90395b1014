import ChipEight.Proofs.Calls
import ChipEight.Proofs.Failure

/-! A cycle reads neither what has been printed nor whether the machine is running, so that a change of
these may be made before it or after it. -/

namespace ChipEight

namespace Actions

variable {ε σ α β : Type}

def leaving (φ : σ → σ) : EStateM.Result ε σ α → EStateM.Result ε σ α
  | .ok a s => .ok a (φ s)
  | .error e s => .error e (φ s)

/-- To change the state and take the second action is to take the first one and change the state. -/
def Commutes (φ : σ → σ) (x y : EStateM ε σ α) : Prop :=
  ∀ s, y (φ s) = leaving φ (x s)

namespace Commutes

variable {φ : σ → σ}

theorem pure (a : α) : Commutes φ (Pure.pure a : EStateM ε σ α) (Pure.pure a) := fun _ => rfl

theorem throw (e : ε) : Commutes φ (throw e : EStateM ε σ α) (throw e) := fun _ => rfl

theorem modify {f g : σ → σ} (h : ∀ s, φ (f s) = g (φ s)) :
    Commutes φ (modify f : EStateM ε σ Unit) (modify g) :=
  fun s => congrArg (EStateM.Result.ok ()) (h s).symm

theorem bind {x y : EStateM ε σ α} {f g : α → EStateM ε σ β} (hx : Commutes φ x y)
    (hf : ∀ a, Commutes φ (f a) (g a)) : Commutes φ (x >>= f) (y >>= g) := by
  intro s
  rw [bind_apply, bind_apply, hx s]
  cases x s with
  | ok a s' => exact hf a s'
  | error e s' => rfl

end Commutes

end Actions

open Actions

def Host.withTracing (h : Host) (tracing : Bool) : Host :=
  { h with tracing := tracing }

def Session.setRunning (s : Session) (running : Bool) : Session :=
  s.onMachine fun m => { m with running := running }

def Session.veiled (s : Session) (running : Bool → Bool) (output : Array Chunk → Array Chunk) :
    Session :=
  { s with
    machine := { s.machine with running := running s.machine.running }
    printed := output s.printed }

/-- Changes of the output and of whether the machine is running that all that is printed and asked for
during a cycle agrees with. -/
structure Veil (h : Host) (tracing : Bool) (running : Bool → Bool)
    (output : Array Chunk → Array Chunk) : Prop where
  stopped : running false = false
  plain : ∀ printed text, output (printed.push (.plain text)) = (output printed).push (.plain text)
  traced : ∀ printed text,
    output (if h.tracing then printed.push (.trace text) else printed) =
      if tracing then (output printed).push (.trace text) else output printed

namespace Machine

theorem effect_apart (m : Machine) (op : Opcode) (answer : Int) (running : Bool)
    (current : Address) :
    ({ m with running := running, current := current } : Machine).effect op answer =
      { m.effect op answer with running := running, current := current } := by
  have hskip : ∀ condition,
      ({ m with running := running, current := current } : Machine).skipIf condition =
        { m.skipIf condition with running := running, current := current } := by
    intro condition
    cases condition <;> rfl
  unfold effect
  cases op.form with
  | skipEqImm | skipNeImm | skipEqReg | skipNeReg | skipIfPressed | skipIfNotPressed =>
    exact hskip _
  | call =>
    dsimp only
    cases m.stack.push m.counter.toNat <;> rfl
  | ret =>
    dsimp only
    cases m.stack.pop <;> rfl
  | draw =>
    have hrows : ({ m with running := running, current := current } : Machine).visibleRows op =
        m.visibleRows op := rfl
    have hbeyond : ∀ count,
        ({ m with running := running, current := current } : Machine).beyond? count =
          m.beyond? count := fun _ => rfl
    show drawEffect _ op = { m.drawEffect op with running := running, current := current }
    simp only [drawEffect, drawn, setV, hrows, hbeyond]
    rfl
  | _ => rfl

theorem effect_current (m : Machine) (op : Opcode) (answer : Int) :
    (m.effect op answer).current = m.current := by
  have heffect : m.effect op answer =
      { m.effect op answer with running := m.running, current := m.current } :=
    m.effect_apart op answer m.running m.current
  rw [heffect]

theorem effect_running (m : Machine) (op : Opcode) (answer : Int) (running : Bool) :
    ({ m with running := running } : Machine).effect op answer =
      { m.effect op answer with running := running } := by
  have hcurrent := m.effect_current op answer
  refine (m.effect_apart op answer running m.current).trans ?_
  rw [← hcurrent]

end Machine

theorem Session.onMachine_veiled {f : Machine → Machine} {running : Bool → Bool}
    {output : Array Chunk → Array Chunk}
    (hf : ∀ (m : Machine) (running : Bool),
      f { m with running := running } = { f m with running := running })
    (hkept : ∀ m : Machine, (f m).running = m.running) (s : Session) :
    (s.veiled running output).onMachine f = (s.onMachine f).veiled running output := by
  show { s with machine := f { s.machine with running := running s.machine.running }, printed := _ } =
    { s with machine := { f s.machine with running := running (f s.machine).running }, printed := _ }
  rw [hf, hkept]
  rfl

namespace Veil

variable {h : Host} {tracing : Bool} {running : Bool → Bool} {output : Array Chunk → Array Chunk}
  (hveil : Veil h tracing running output)
include hveil

theorem trace (s : Session) (text : String) :
    (s.trace h text).veiled running output =
      (s.veiled running output).trace (h.withTracing tracing) text := by
  have hprinted := hveil.traced s.printed text
  have htrace : ∀ (s : Session) (h : Host), s.trace h text =
      { s with printed := if h.tracing then s.printed.push (.trace text) else s.printed } := by
    intro s h
    unfold Session.trace
    split <;> rfl
  rw [htrace, htrace, Session.veiled, hprinted]
  rfl

theorem grant (s : Session) (r : Request) :
    (s.grant r).veiled running output = (s.veiled running output).grant r := by
  cases r with
  | stop =>
    show { s with machine := { s.machine with running := running false }, printed := _ } = _
    rw [hveil.stopped]
    rfl
  | press name => rfl
  | release name => rfl

theorem accept (s : Session) (r : Reply) :
    (s.accept r).veiled running output = (s.veiled running output).accept r := by
  have hprint : (s.print (.plain r.text)).veiled running output =
      (s.veiled running output).print (.plain r.text) := by
    rw [Session.veiled, Session.print, hveil.plain]
    rfl
  have hgrants : ∀ s : Session, (r.requests.foldl Session.grant s).veiled running output =
      r.requests.foldl Session.grant (s.veiled running output) :=
    fun s => (List.foldl_hom (Session.veiled · running output)
      fun s r => (hveil.grant s r).symm).symm
  unfold Session.accept
  rw [hgrants]
  split
  · rfl
  · rw [hprint]

theorem beep (s : Session) :
    (s.beep h).veiled running output = (s.veiled running output).beep (h.withTracing tracing) := by
  have hbeeper : (h.withTracing tracing).beeper = h.beeper := rfl
  unfold Session.beep
  rw [hbeeper]
  cases h.beeper with
  | none => rfl
  | some beeper => exact hveil.accept _ _

theorem tickTimers (s : Session) :
    (s.tickTimers h).veiled running output =
      (s.veiled running output).tickTimers (h.withTracing tracing) := by
  have hsound : ((s.veiled running output).onMachine Machine.tickDelay).machine.sound =
      (s.onMachine Machine.tickDelay).machine.sound := rfl
  unfold Session.tickTimers
  dsimp only
  rw [hsound]
  split
  · exact congrArg (·.onMachine Machine.tickSound) (hveil.beep _)
  · rfl

theorem present (s : Session) :
    (s.present h).veiled running output =
      (s.veiled running output).present (h.withTracing tracing) := by
  have hrenderer : (h.withTracing tracing).renderer = h.renderer := rfl
  have hdirty : (s.veiled running output).machine.dirty = s.machine.dirty := rfl
  unfold Session.present
  rw [hrenderer, hdirty]
  cases h.renderer with
  | none => rfl
  | some renderer =>
    dsimp only
    split
    · exact congrArg (Session.onMachine · fun m => { m with dirty := false }) (hveil.accept _ _)
    · rfl

section Actions

omit hveil in
theorem ofExcept {α : Type} (x : Except Fault α) :
    Commutes (Session.veiled · running output) (SessionM.ofExcept x) (SessionM.ofExcept x) := by
  cases x with
  | ok a => exact .pure a
  | error f => exact .throw _

omit hveil in
theorem awaitKey :
    Commutes (Session.veiled · running output) SessionM.awaitKey SessionM.awaitKey := by
  intro s
  have hsource : (s.veiled running output).source = s.source := rfl
  unfold SessionM.awaitKey
  rw [hsource]
  cases s.source with
  | absent => rfl
  | script names =>
    have hkeypad : (s.veiled running output).machine.keypad = s.machine.keypad := rfl
    dsimp only
    rw [hkeypad]
    cases (s.machine.keypad.search names).found <;> rfl
  | keyboard =>
    have hkeypad : (s.veiled running output).machine.keypad = s.machine.keypad := rfl
    have hkeyboard : (s.veiled running output).keyboard = s.keyboard := rfl
    dsimp only
    rw [hkeypad, hkeyboard]
    cases (s.machine.keypad.await s.keyboard.queue).ended <;> rfl

theorem decodeInt (v : Int) :
    Commutes (Session.veiled · running output) (decodeIntTraced h v)
      (decodeIntTraced (h.withTracing tracing) v) :=
  .bind (ofExcept _) fun w =>
    .bind (.modify fun s => hveil.trace s (Word.traceMark w)) fun _ => ofExcept _

omit hveil in
theorem answerTo (f : Form) :
    Commutes (Session.veiled · running output) (answerTo h f)
      (answerTo (h.withTracing tracing) f) := by
  by_cases hkey : f = .waitKey
  · subst hkey
    exact awaitKey
  · by_cases hrand : f = .rand
    · subst hrand
      exact fun _ => rfl
    · intro s
      rw [answerTo_of_ne hrand hkey, answerTo_of_ne hrand hkey]
      rfl

omit hveil in
theorem perform (op : Opcode) (answer : Int) :
    Commutes (Session.veiled · running output) (SessionM.ofMachine (op.perform answer))
      (SessionM.ofMachine (op.perform answer)) := by
  intro s
  have hfault : (s.veiled running output).machine.fault? op = s.machine.fault? op :=
    Machine.fault?_congr op rfl rfl rfl
  have haffected : (s.veiled running output).affected op answer =
      (s.affected op answer).veiled running output :=
    Session.onMachine_veiled (fun m => m.effect_running op answer)
      (fun m => (m.effect_footprint op answer).running_eq) s
  cases hf : s.machine.fault? op with
  | none =>
    rw [SessionM.ofMachine_perform_of_none _ (hfault.trans hf), SessionM.ofMachine_perform_of_none s hf,
      haffected]
    rfl
  | some f =>
    rw [SessionM.ofMachine_perform_of_fault _ (hfault.trans hf),
      SessionM.ofMachine_perform_of_fault s hf, haffected]
    rfl

theorem execute (op : Opcode) :
    Commutes (Session.veiled · running output) (execute h op)
      (execute (h.withTracing tracing) op) := by
  have henter : ∀ s : Session, ((s.onMachine (·.enter op)).veiled running output) =
      (s.veiled running output).onMachine (·.enter op) := by
    refine fun s => (Session.onMachine_veiled (fun m running => ?_) (fun m => ?_) s).symm
    · rw [Machine.enter_eq, Machine.enter_eq]
    · rw [Machine.enter_eq]
  exact .bind (.modify henter) fun _ =>
    .bind (answerTo op.form) fun answer =>
      .bind (perform op answer) fun _ => .modify fun s => hveil.trace s _

theorem executeInt (v : Int) :
    Commutes (Session.veiled · running output) (executeInt h v)
      (executeInt (h.withTracing tracing) v) :=
  .bind (hveil.decodeInt v) fun op => hveil.execute op

theorem cycle :
    Commutes (Session.veiled · running output) (cycle h) (cycle (h.withTracing tracing)) := by
  have hconclude : ∀ s : Session, ((s.tickTimers h).present h).veiled running output =
      ((s.veiled running output).tickTimers (h.withTracing tracing)).present
        (h.withTracing tracing) :=
    fun s => (hveil.present _).trans (congrArg (Session.present · _) (hveil.tickTimers s))
  have hclear : ∀ s : Session, s.cleared.veiled running output =
      (s.veiled running output).cleared := fun _ => rfl
  have hfetch : ∀ s : Session, (s.veiled running output).machine.fetch = s.machine.fetch :=
    fun _ => rfl
  refine .bind (.modify hclear) fun _ s => ?_
  rw [bind_apply, bind_apply, get_apply, get_apply, proceed_ok, proceed_ok, hfetch]
  refine Commutes.bind (ofExcept _) (fun w => ?_) s
  exact .bind (hveil.decodeInt w.toNat) fun op =>
    .bind (hveil.execute op) fun _ => .bind (.modify hconclude) fun _ => .pure op

end Actions

end Veil

end ChipEight
