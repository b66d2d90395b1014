import ChipEight.Proofs.Footprint
import ChipEight.Proofs.Keys

/-! When a cycle fails: the conditions on the state before it, and no others. -/

namespace ChipEight

namespace Machine

structure Next (m : Machine) (op : Opcode) : Prop where
  counter_ne : m.counter ≠ 4095
  word_eq : op.word = m.word
  fits : op.form.Fits m.word

theorem next_iff {m : Machine} {op : Opcode} :
    m.Next op ↔ m.counter ≠ 4095 ∧ decode m.word = .ok op := by
  rw [decode_eq_ok_iff]
  exact ⟨fun h => ⟨h.counter_ne, h.word_eq, h.fits⟩, fun h => ⟨h.1, h.2.1, h.2.2⟩⟩

/-- The conditions under which the machine cannot complete an instruction. Rows of a sprite below the
bottom edge are not read. -/
inductive Faults (m : Machine) (op : Opcode) : Fault → Prop
  | call (hop : op.form = .call) (hd : m.stack.depth = 16) : m.Faults op .stackOverflow
  | ret (hop : op.form = .ret) (hd : m.stack.depth = 0) : m.Faults op .stackUnderflow
  | storeBcd (hop : op.form = .storeBcd) (hi : 4095 < m.index.toNat + 2) :
      m.Faults op (.memoryAccess 4096)
  | storeRegs (hop : op.form = .storeRegs) (hi : 4095 < m.index.toNat + op.x.toNat) :
      m.Faults op (.memoryAccess 4096)
  | loadRegs (hop : op.form = .loadRegs) (hi : 4095 < m.index.toNat + op.x.toNat) :
      m.Faults op (.memoryAccess 4096)
  | draw (hop : op.form = .draw) (hn : 1 ≤ op.n.toNat)
      (hi : 4095 < m.index.toNat + min op.n.toNat (32 - (m.v op.y).toNat % 32) - 1) :
      m.Faults op (.memoryAccess 4096)

theorem beyond?_eq_some_iff {m : Machine} {n : Nat} {f : Fault} :
    m.beyond? n = some f ↔ 4096 < m.index.toNat + n ∧ f = .memoryAccess 4096 := by
  unfold beyond?
  split
  · next h => exact ⟨fun hf => ⟨h, (Option.some.inj hf).symm⟩, fun hf => congrArg some hf.2.symm⟩
  · next h => exact ⟨nofun, fun hf => absurd hf.1 h⟩

theorem fault?_eq_some_iff {m : Machine} {op : Opcode} {f : Fault} :
    m.fault? op = some f ↔ m.Faults op f := by
  have hi : m.index.toNat < 4096 := m.index.isLt
  unfold fault?
  constructor
  · intro h
    split at h
    · next hop =>
      split at h
      · next hd =>
        cases h
        exact .ret hop hd
      · cases h
    · next hop =>
      split at h
      · next hd =>
        cases h
        exact .call hop hd
      · cases h
    · next hop =>
      obtain ⟨hlt, rfl⟩ := beyond?_eq_some_iff.1 h
      exact .storeBcd hop (by omega)
    · next hop =>
      obtain ⟨hlt, rfl⟩ := beyond?_eq_some_iff.1 h
      exact .storeRegs hop (by omega)
    · next hop =>
      obtain ⟨hlt, rfl⟩ := beyond?_eq_some_iff.1 h
      exact .loadRegs hop (by omega)
    · next hop =>
      obtain ⟨hlt, rfl⟩ := beyond?_eq_some_iff.1 h
      unfold visibleRows originY at hlt
      exact .draw hop (by omega) (by omega)
    · cases h
  · intro h
    cases h with
    | call hop hd => simp only [hop, if_pos hd]
    | ret hop hd => simp only [hop, if_pos hd]
    | storeBcd hop hi =>
      simp only [hop]
      exact beyond?_eq_some_iff.2 ⟨by omega, rfl⟩
    | storeRegs hop hi =>
      simp only [hop]
      exact beyond?_eq_some_iff.2 ⟨by omega, rfl⟩
    | loadRegs hop hi =>
      simp only [hop]
      exact beyond?_eq_some_iff.2 ⟨by omega, rfl⟩
    | draw hop hn hlt =>
      simp only [hop]
      refine beyond?_eq_some_iff.2 ⟨?_, rfl⟩
      unfold visibleRows originY
      omega

theorem fault?_congr {m m' : Machine} (op : Opcode) (hregisters : m'.registers = m.registers)
    (hindex : m'.index = m.index) (hstack : m'.stack = m.stack) :
    m'.fault? op = m.fault? op := by
  unfold fault? beyond? visibleRows originY v
  rw [hregisters, hindex, hstack]

end Machine

namespace Session

variable {s : Session} {h : Host}

theorem fault?_of_answered {op : Opcode} {answer : Int} {s₁ : Session}
    (ha : answerTo h op.form (s.begun h op) = .ok answer s₁) :
    s₁.machine.fault? op = s.machine.fault? op := by
  obtain ⟨keypad, running, hm⟩ := answered_touched ha
  rw [hm]
  exact Machine.fault?_congr op (Machine.enter_registers ..) (Machine.enter_index ..)
    (Machine.enter_stack ..)

theorem completes_of_next {op : Opcode} (hop : s.machine.Next op) (hrand : op.form ≠ .rand)
    (hkey : op.form ≠ .waitKey) (hf : s.machine.fault? op = none) :
    Completes h s op 0 (s.begun h op) := by
  obtain ⟨hc, hd⟩ := Machine.next_iff.1 hop
  have ha : answerTo h op.form (s.begun h op) = .ok 0 (s.begun h op) := answerTo_of_ne hrand hkey
  exact ⟨hc, hd, ha, (fault?_of_answered ha).trans hf⟩

theorem keyless_begun {op : Opcode} {e : Halt} : (s.begun h op).Keyless e ↔ s.Keyless e := by
  refine keyless_congr ?_ ?_ ?_
  · exact trace_source _ h _
  · exact trace_keyboard _ h _
  · rw [begun_machine, Machine.enter_keypad]

/-- Why the next cycle fails: there is no whole word at the counter, or no instruction, or the machine
cannot complete it, or it waits for a key that does not come. -/
inductive Fails (s : Session) : Halt → Prop
  | fetch (hc : s.machine.counter = 4095) : s.Fails (.fault (.memoryAccess 4096))
  | decode (hc : s.machine.counter ≠ 4095)
      (hw : ∀ f : Form, f.template.admits s.machine.word = false) :
      s.Fails (.fault (.unknownOpcode s.machine.word))
  | perform {op : Opcode} {f : Fault} (hop : s.machine.Next op) (hf : s.machine.Faults op f) :
      s.Fails (.fault f)
  | wait {op : Opcode} {e : Halt} (hop : s.machine.Next op) (hform : op.form = .waitKey)
      (he : s.Keyless e) : s.Fails e

theorem Fails.of_halts {e : Halt} {s' : Session} (hs : Halts h s e s') : s.Fails e := by
  cases hs with
  | fetch hc => exact .fetch hc
  | decode hc hd =>
    obtain ⟨rfl, hw⟩ := decode_eq_error_iff.1 hd
    exact .decode hc hw
  | answer hc hd ha =>
    obtain ⟨hform, hkey⟩ := answerTo_error ha
    exact .wait (Machine.next_iff.2 ⟨hc, hd⟩) hform
      (keyless_begun.1 (awaitKey_error_iff.1 ⟨_, hkey⟩))
  | perform hc hd ha hf =>
    rw [fault?_of_answered ha] at hf
    exact .perform (Machine.next_iff.2 ⟨hc, hd⟩) (Machine.fault?_eq_some_iff.1 hf)

theorem answered_of_faults {op : Opcode} {f : Fault} (hf : s.machine.Faults op f) :
    answerTo h op.form (s.begun h op) = .ok 0 (s.begun h op) := by
  cases hf <;> exact answerTo_of_ne (by simp [*]) (by simp [*])

theorem Fails.halts {e : Halt} (hs : s.Fails e) (h : Host) : ∃ s', Halts h s e s' := by
  cases hs with
  | fetch hc => exact ⟨_, .fetch hc⟩
  | decode hc hw => exact ⟨_, .decode hc (decode_eq_error_iff.2 ⟨rfl, hw⟩)⟩
  | perform hop hf =>
    obtain ⟨hc, hd⟩ := Machine.next_iff.1 hop
    have ha := answered_of_faults (h := h) hf
    have hfault := (fault?_of_answered ha).trans (Machine.fault?_eq_some_iff.2 hf)
    exact ⟨_, .perform hc hd ha hfault⟩
  | wait hop hform he =>
    obtain ⟨hc, hd⟩ := Machine.next_iff.1 hop
    obtain ⟨s', hkey⟩ := awaitKey_error_iff.2 (keyless_begun (h := h).2 he)
    refine ⟨s', .answer hc hd ?_⟩
    rw [hform]
    exact hkey

theorem not_faults_of_cycle {op : Opcode} {s' : Session} (hs : cycle h s = .ok op s')
    (f : Fault) : ¬ s.machine.Faults op f := by
  intro hf
  obtain ⟨answer, s₁, hc, rfl⟩ := cycle_ok_iff.1 hs
  have hsome := (fault?_of_answered hc.answered).trans (Machine.fault?_eq_some_iff.2 hf)
  rw [hc.faultless] at hsome
  cases hsome

/-- A cycle fails under the listed conditions and under no others. No number that it handles is ever
out of its range, whatever the host answers. -/
theorem cycle_fails_iff (h : Host) (s : Session) :
    (∀ e, (∃ s', cycle h s = .error e s') ↔ s.Fails e) ∧
      (∀ r s', cycle h s ≠ .error (.fault (.outOfRange r)) s') ∧
      ∀ i s', cycle h s ≠ .error (.fault (.registerIndex i)) s' := by
  have hiff : ∀ e, (∃ s', cycle h s = .error e s') ↔ s.Fails e := by
    intro e
    constructor
    · rintro ⟨s', hs⟩
      exact .of_halts (cycle_error_iff.1 hs)
    · intro hs
      obtain ⟨s', hs'⟩ := hs.halts h
      exact ⟨s', hs'.cycle_eq⟩
  refine ⟨hiff, ?_, ?_⟩
  · intro r s' hs
    rcases (hiff _).1 ⟨s', hs⟩ with _ | _ | ⟨_, hf⟩ | ⟨_, _, he⟩
    · cases hf
    · cases he
  · intro i s' hs
    rcases (hiff _).1 ⟨s', hs⟩ with _ | _ | ⟨_, hf⟩ | ⟨_, _, he⟩
    · cases hf
    · cases he

end Session

end ChipEight
