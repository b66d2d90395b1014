import ChipEight.Proofs.Decoding
import ChipEight.Proofs.Perform
import ChipEight.Session.Cycle

/-! What a cycle comes to, by the word at the counter and by what the host answers. -/

namespace ChipEight

open Actions

namespace Machine

def word (m : Machine) : Word :=
  m.memory.cell m.counter.toNat ++ m.memory.cell (m.counter.toNat + 1)

theorem fetch_of_last {m : Machine} (h : m.counter = 4095) :
    m.fetch = .error (.memoryAccess 4096) :=
  m.memory.readWord_of_last (congrArg (·.toNat + 1) h)

theorem fetch_of_ne {m : Machine} (h : m.counter ≠ 4095) : m.fetch = .ok m.word := by
  have hlt : m.counter.toNat < 4096 := m.counter.isLt
  have hne : m.counter.toNat ≠ 4095 := fun he => h (BitVec.eq_of_toNat_eq he)
  exact m.memory.readWord_eq (by omega)

end Machine

namespace Session

variable (s : Session) (h : Host)

@[simp] theorem onMachine_machine (f : Machine → Machine) :
    (s.onMachine f).machine = f s.machine := rfl

theorem trace_eq (text : String) :
    s.trace h text = { s with printed := (s.trace h text).printed } := by
  unfold trace
  split <;> rfl

@[simp] theorem trace_machine (text : String) : (s.trace h text).machine = s.machine := by
  rw [trace_eq]

@[simp] theorem trace_source (text : String) : (s.trace h text).source = s.source := by
  rw [trace_eq]

@[simp] theorem trace_keyboard (text : String) : (s.trace h text).keyboard = s.keyboard := by
  rw [trace_eq]

def cleared : Session :=
  s.onMachine fun m => { m with dirty := false }

def announced : Session :=
  s.cleared.trace h (Word.traceMark s.machine.word)

@[simp] theorem announced_machine : (s.announced h).machine = s.cleared.machine :=
  trace_machine ..

def begun (op : Opcode) : Session :=
  (s.announced h).onMachine (·.enter op)

def affected (op : Opcode) (answer : Int) : Session :=
  s.onMachine (·.effect op answer)

end Session

namespace SessionM

variable {α : Type} (s : Session) (h : Host)

theorem ofExcept_ok (a : α) : ofExcept (.ok a) s = .ok a s := rfl

theorem ofExcept_error (f : Fault) :
    (ofExcept (.error f) : SessionM α) s = .error (.fault f) s := rfl

theorem ofMachine_perform_of_fault {op : Opcode} {f : Fault} (hf : s.machine.fault? op = some f)
    (answer : Int) :
    ofMachine (op.perform answer) s = .error (.fault f) (s.affected op answer) := by
  unfold ofMachine
  rw [Opcode.perform_apply, hf]
  rfl

theorem ofMachine_perform_of_none {op : Opcode} (hf : s.machine.fault? op = none)
    (answer : Int) : ofMachine (op.perform answer) s = .ok () (s.affected op answer) := by
  unfold ofMachine
  rw [Opcode.perform_apply, hf]
  rfl

end SessionM

open SessionM

section Execute

variable {h : Host} {op : Opcode} {s s₁ : Session} {answer : Int}

theorem execute_apply (h : Host) (op : Opcode) (s : Session) :
    execute h op s = proceed (answerTo h op.form (s.onMachine (·.enter op))) fun answer =>
      ofMachine (op.perform answer) >>= fun _ =>
        modify fun s => s.trace h (op.traceLine s.machine.current) := rfl

theorem execute_of_halt {e : Halt}
    (ha : answerTo h op.form (s.onMachine (·.enter op)) = .error e s₁) :
    execute h op s = .error e s₁ := by
  rw [execute_apply, ha, proceed_error]

theorem execute_of_fault {f : Fault}
    (ha : answerTo h op.form (s.onMachine (·.enter op)) = .ok answer s₁)
    (hf : s₁.machine.fault? op = some f) :
    execute h op s = .error (.fault f) (s₁.affected op answer) := by
  rw [execute_apply, ha, proceed_ok, bind_apply, ofMachine_perform_of_fault s₁ hf, proceed_error]

theorem execute_of_none
    (ha : answerTo h op.form (s.onMachine (·.enter op)) = .ok answer s₁)
    (hf : s₁.machine.fault? op = none) :
    execute h op s = .ok () ((s₁.affected op answer).trace h
      (op.traceLine (s₁.machine.effect op answer).current)) := by
  rw [execute_apply, ha, proceed_ok, bind_apply, ofMachine_perform_of_none s₁ hf, proceed_ok,
    modify_apply]
  rfl

end Execute

theorem decodeIntTraced_apply (h : Host) (w : Word) (s : Session) :
    decodeIntTraced h w.toNat s =
      SessionM.ofExcept (decode w) (s.trace h (Word.traceMark w)) := by
  unfold decodeIntTraced
  rw [fit_toNat]
  rfl

section Cycle

variable {h : Host} {s : Session}

theorem cycle_of_last (hc : s.machine.counter = 4095) :
    cycle h s = .error (.fault (.memoryAccess 4096)) s.cleared := by
  have hf : s.cleared.machine.fetch = .error (.memoryAccess 4096) := Machine.fetch_of_last hc
  unfold cycle
  rw [bind_apply, modify_apply, proceed_ok, bind_apply, get_apply, proceed_ok, bind_apply]
  show proceed (SessionM.ofExcept s.cleared.machine.fetch s.cleared) _ = _
  rw [hf]
  rfl

theorem cycle_of_ne (hc : s.machine.counter ≠ 4095) :
    cycle h s = proceed (SessionM.ofExcept (decode s.machine.word) (s.announced h)) fun op =>
      execute h op >>= fun _ => modify (fun s => (s.tickTimers h).present h) >>= fun _ =>
        pure op := by
  have hf : s.cleared.machine.fetch = .ok s.machine.word :=
    Machine.fetch_of_ne (m := s.cleared.machine) hc
  unfold cycle
  rw [bind_apply, modify_apply, proceed_ok, bind_apply, get_apply, proceed_ok, bind_apply]
  show proceed (SessionM.ofExcept s.cleared.machine.fetch s.cleared) _ = _
  rw [hf, SessionM.ofExcept_ok, proceed_ok, bind_apply, decodeIntTraced_apply]
  rfl

/-- The ways in which a cycle halts, each with what it halts for and with the session that it
leaves. -/
inductive Halts (h : Host) (s : Session) : Halt → Session → Prop
  | fetch (hc : s.machine.counter = 4095) : Halts h s (.fault (.memoryAccess 4096)) s.cleared
  | decode {f : Fault} (hc : s.machine.counter ≠ 4095)
      (hd : ChipEight.decode s.machine.word = .error f) : Halts h s (.fault f) (s.announced h)
  | answer {op : Opcode} {e : Halt} {s₁ : Session} (hc : s.machine.counter ≠ 4095)
      (hd : ChipEight.decode s.machine.word = .ok op)
      (ha : answerTo h op.form (s.begun h op) = .error e s₁) : Halts h s e s₁
  | perform {op : Opcode} {answer : Int} {s₁ : Session} {f : Fault}
      (hc : s.machine.counter ≠ 4095) (hd : ChipEight.decode s.machine.word = .ok op)
      (ha : answerTo h op.form (s.begun h op) = .ok answer s₁)
      (hf : s₁.machine.fault? op = some f) : Halts h s (.fault f) (s₁.affected op answer)

def Session.concluded (s : Session) (h : Host) (op : Opcode) (answer : Int) : Session :=
  (((s.affected op answer).trace h (op.traceLine (s.machine.effect op answer).current)).tickTimers
    h).present h

structure Completes (h : Host) (s : Session) (op : Opcode) (answer : Int) (s₁ : Session) :
    Prop where
  counter_ne : s.machine.counter ≠ 4095
  decodes : ChipEight.decode s.machine.word = .ok op
  answered : answerTo h op.form (s.begun h op) = .ok answer s₁
  faultless : s₁.machine.fault? op = none

variable {op : Opcode} {answer : Int} {e : Halt} {s₁ s' : Session}

theorem Halts.cycle_eq (hs : Halts h s e s') : cycle h s = .error e s' := by
  cases hs with
  | fetch hc => exact cycle_of_last hc
  | decode hc hd =>
    rw [cycle_of_ne hc, hd]
    rfl
  | answer hc hd ha =>
    rw [cycle_of_ne hc, hd, SessionM.ofExcept_ok, proceed_ok, bind_apply, execute_of_halt ha,
      proceed_error]
  | perform hc hd ha hf =>
    rw [cycle_of_ne hc, hd, SessionM.ofExcept_ok, proceed_ok, bind_apply, execute_of_fault ha hf,
      proceed_error]

theorem Completes.cycle_eq (hs : Completes h s op answer s₁) :
    cycle h s = .ok op (s₁.concluded h op answer) := by
  rw [cycle_of_ne hs.counter_ne, hs.decodes, SessionM.ofExcept_ok, proceed_ok, bind_apply,
    execute_of_none hs.answered hs.faultless, proceed_ok]
  rfl

theorem cycle_cases (h : Host) (s : Session) :
    (∃ e s', Halts h s e s') ∨ ∃ op answer s₁, Completes h s op answer s₁ := by
  by_cases hc : s.machine.counter = 4095
  · exact .inl ⟨_, _, .fetch hc⟩
  cases hd : decode s.machine.word with
  | error f => exact .inl ⟨_, _, .decode hc hd⟩
  | ok op =>
    cases ha : answerTo h op.form (s.begun h op) with
    | error e s₁ => exact .inl ⟨_, _, .answer hc hd ha⟩
    | ok answer s₁ =>
      cases hf : s₁.machine.fault? op with
      | some f => exact .inl ⟨_, _, .perform hc hd ha hf⟩
      | none => exact .inr ⟨op, answer, s₁, hc, hd, ha, hf⟩

theorem cycle_error_iff : cycle h s = .error e s' ↔ Halts h s e s' := by
  constructor
  · intro hs
    rcases cycle_cases h s with ⟨_, _, hh⟩ | ⟨_, _, _, hh⟩
    · rw [hh.cycle_eq] at hs
      cases hs
      exact hh
    · rw [hh.cycle_eq] at hs
      cases hs
  · exact Halts.cycle_eq

theorem cycle_ok_iff :
    cycle h s = .ok op s' ↔
      ∃ answer s₁, Completes h s op answer s₁ ∧ s' = s₁.concluded h op answer := by
  constructor
  · intro hs
    rcases cycle_cases h s with ⟨_, _, hh⟩ | ⟨_, _, _, hh⟩
    · rw [hh.cycle_eq] at hs
      cases hs
    · rw [hh.cycle_eq] at hs
      cases hs
      exact ⟨_, _, hh, rfl⟩
  · rintro ⟨_, _, hh, rfl⟩
    exact hh.cycle_eq

end Cycle

end ChipEight
