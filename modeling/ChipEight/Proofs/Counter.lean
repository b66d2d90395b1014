import ChipEight.Proofs.Execution

/-! Where each instruction leaves the counter. -/

namespace ChipEight

open Actions

theorem Address.toNat_next (a : Address) : ((a + 2).toNat : Int) = (a.toNat + 2) % 4096 := by
  have htwo : (2 : Address).toNat = 2 := rfl
  rw [BitVec.toNat_add, htwo]
  omega

def Form.isConditional : Form → Bool
  | skipEqImm | skipNeImm | skipEqReg | skipNeReg | skipIfPressed | skipIfNotPressed => true
  | _ => false

namespace Machine

def skips (m : Machine) (op : Opcode) : Bool :=
  match op.form with
  | .skipEqImm => m.v op.x = op.nn
  | .skipNeImm => m.v op.x ≠ op.nn
  | .skipEqReg => m.v op.x = m.v op.y
  | .skipNeReg => m.v op.x ≠ m.v op.y
  | .skipIfPressed => m.keypad.isHeld ((m.v op.x).toNat % 16 : Nat)
  | .skipIfNotPressed => !m.keypad.isHeld ((m.v op.x).toNat % 16 : Nat)
  | _ => false

def behind (m : Machine) (op : Opcode) : Int :=
  if m.skips op then (m.counter.toNat + 4) % 4096 else (m.counter.toNat + 2) % 4096

/-- The address after an instruction. A return has none if there is nothing to return to. -/
def successor? (m : Machine) (op : Opcode) : Option Int :=
  match op.form with
  | .jump | .call => some op.nnn.toNat
  | .jumpPlusV0 => some ((op.nnn.toNat + (m.v 0).toNat) % 4096)
  | .ret => m.stack.live.getLast?.map fun a => (a + 2) % 4096
  | _ => some (m.behind op)

variable {m : Machine} {op : Opcode}

theorem skipIf_counter (c : Bool) :
    (m.skipIf c).counter = if c then m.counter + 2 else m.counter := by
  cases c <;> rfl

theorem effect_counter (hop : op.form.setsCounter = false) (answer : Int) :
    (m.effect op answer).counter = if m.skips op then m.counter + 2 else m.counter := by
  unfold effect skips
  cases hform : op.form with
  | jump | jumpPlusV0 | call | ret => rw [hform] at hop; cases hop
  | skipEqImm | skipNeImm | skipEqReg | skipNeReg => exact skipIf_counter _
  | skipIfPressed | skipIfNotPressed =>
    simp only [Keypad.isHeld, Byte.key_eq]
    exact skipIf_counter _
  | draw =>
    dsimp only
    rw [drawEffect, drawn]
    rfl
  | _ => rfl

variable {keypad : Keypad}

theorem skips_begun (hkeypad : op.form ≠ .waitKey → keypad = m.keypad) :
    ({ m.enter op with keypad := keypad } : Machine).skips op = m.skips op := by
  by_cases hop : op.form = .waitKey
  · simp only [skips, hop]
  · rw [hkeypad hop, enter_eq]
    rfl

theorem begun_counter (hop : op.form.setsCounter = false) :
    (m.enter op).counter = m.counter + 2 := by
  rw [enter_eq, hop]
  rfl

theorem begun_effect_counter (hkeypad : op.form ≠ .waitKey → keypad = m.keypad)
    (hf : m.fault? op = none) (answer : Int) :
    m.successor? op = some
      ((({ m.enter op with keypad := keypad } : Machine).effect op answer).counter.toNat : Int) := by
  cases hform : op.form with
  | jump => simp only [successor?, effect, hform]
  | jumpPlusV0 =>
    have hv : ({ m.enter op with keypad := keypad } : Machine).v 0 = m.v 0 := by
      rw [enter_eq]
      rfl
    simp only [successor?, effect, hform, hv]
    rw [← Address.wrap_add, Address.toNat_wrap]
  | call =>
    have hlt : m.stack.depth < 16 := by
      have hne : m.stack.depth ≠ 16 := by simpa [fault?, hform] using hf
      exact Nat.lt_of_le_of_ne m.stack.depth_le hne
    have hpush : ∀ a, ∃ stack, m.stack.push a = .ok stack := fun a => ⟨_, dif_pos hlt⟩
    obtain ⟨stack, hstack⟩ := hpush (m.enter op).counter.toNat
    simp only [successor?, effect, hform, enter_stack, hstack]
  | ret =>
    have hne : m.stack.depth ≠ 0 := by simpa [fault?, hform] using hf
    obtain ⟨⟨a, stack⟩, hpop⟩ : ∃ t, m.stack.pop = .ok t := ⟨_, dif_neg hne⟩
    have hlast := CallStack.getLast?_live_of_pop hpop
    simp only [successor?, effect, hform, enter_stack, hpop, hlast, Option.map_some]
    rw [Address.toNat_next, Address.toNat_wrap, Int.emod_add_emod]
  | _ =>
    have hop : op.form.setsCounter = false := by
      rw [hform]
      rfl
    rw [effect_counter hop, skips_begun hkeypad, begun_counter hop]
    simp only [successor?, hform, behind]
    cases m.skips op
    · exact congrArg some (Address.toNat_next _).symm
    · refine congrArg some ?_
      rw [if_pos rfl, if_pos rfl, Address.toNat_next, Address.toNat_next, Int.emod_add_emod,
        Int.add_assoc]
      rfl

end Machine

section Execution

variable {h : Host} {op : Opcode} {s s' : Session}

theorem execute_counter (hs : execute h op s = .ok () s') :
    s.machine.successor? op = some (s'.machine.counter.toNat : Int) := by
  obtain ⟨answer, s₁, ha, hf, rfl⟩ := execute_ok hs
  obtain ⟨keypad, hkeypad, hmachine⟩ := ha.machine_eq
  have hfaultless : s.machine.fault? op = none := by
    refine (Machine.fault?_congr op ?_ ?_ ?_).symm.trans hf
    · rw [hmachine]
      exact s.machine.enter_registers op
    · rw [hmachine]
      exact s.machine.enter_index op
    · rw [hmachine]
      exact s.machine.enter_stack op
  have hkept : op.form ≠ .waitKey → keypad = s.machine.keypad :=
    fun hne => (hkeypad hne).trans (s.machine.enter_keypad op)
  rw [Machine.begun_effect_counter hkept hfaultless answer, Session.trace_machine,
    Session.affected, Session.onMachine_machine, hmachine]
  rfl

theorem cycle_counter (hs : cycle h s = .ok op s') :
    s.machine.successor? op = some (s'.machine.counter.toNat : Int) := by
  obtain ⟨t, ht, _, _, hmachine⟩ := execute_of_cycle hs
  have hsuccessor := execute_counter ht
  rw [Session.announced_machine] at hsuccessor
  rw [hmachine]
  exact hsuccessor

theorem execute_conditional (hop : op.form.isConditional = true) (h : Host) (s : Session) :
    ∃ s', execute h op s = .ok () s' ∧
      s.machine.behind op = (s'.machine.counter.toNat : Int) := by
  have hcases : op.form ≠ .rand ∧ op.form ≠ .waitKey ∧ (∀ m : Machine, m.fault? op = none) ∧
      s.machine.successor? op = some (s.machine.behind op) := by
    unfold Machine.fault? Machine.successor?
    cases hform : op.form with
    | skipEqImm | skipNeImm | skipEqReg | skipNeReg | skipIfPressed | skipIfNotPressed =>
      exact ⟨nofun, nofun, fun _ => rfl, rfl⟩
    | _ =>
      rw [hform] at hop
      cases hop
  obtain ⟨hrand, hkey, hf, hsuccessor⟩ := hcases
  have hexecute := execute_of_none (h := h) (s := s) (answerTo_of_ne hrand hkey) (hf _)
  exact ⟨_, hexecute, Option.some.inj (hsuccessor.symm.trans (execute_counter hexecute))⟩

end Execution

/-- Pairs of conditional instructions on the same operands, one of which skips where the other does
not. -/
inductive Opcode.Opposite (a b : Opcode) : Prop
  | imm (ha : a.form = .skipEqImm) (hb : b.form = .skipNeImm) (hx : b.x = a.x) (hnn : b.nn = a.nn)
  | reg (ha : a.form = .skipEqReg) (hb : b.form = .skipNeReg) (hx : b.x = a.x) (hy : b.y = a.y)
  | key (ha : a.form = .skipIfPressed) (hb : b.form = .skipIfNotPressed) (hx : b.x = a.x)

theorem Opcode.Opposite.skips {a b : Opcode} (hab : a.Opposite b) (m : Machine) :
    m.skips b = !m.skips a := by
  cases hab with
  | imm ha hb hx hnn => simp only [Machine.skips, ha, hb, hx, hnn, decide_not]
  | reg ha hb hx hy => simp only [Machine.skips, ha, hb, hx, hy, decide_not]
  | key ha hb hx => simp only [Machine.skips, ha, hb, hx]

theorem Opcode.Opposite.conditional {a b : Opcode} (hab : a.Opposite b) :
    a.form.isConditional = true ∧ b.form.isConditional = true := by
  cases hab with
  | imm ha hb | reg ha hb | key ha hb =>
    rw [ha, hb]
    exact ⟨rfl, rfl⟩

/-- Where every cycle leaves the counter; and of two opposite instructions carried out on the same
machine, one skips and the other does not. -/
theorem counter_follows_law :
    (∀ {h : Host} {op : Opcode} {s s' : Session}, cycle h s = .ok op s' →
      s.machine.successor? op = some (s'.machine.counter.toNat : Int)) ∧
    ∀ {a b : Opcode}, a.Opposite b → ∀ (h : Host) (s : Session),
      ∃ s₁ s₂, execute h a s = .ok () s₁ ∧ execute h b s = .ok () s₂ ∧
        (s₁.machine.counter.toNat = (s.machine.counter.toNat + 4) % 4096 ∧
            s₂.machine.counter.toNat = (s.machine.counter.toNat + 2) % 4096 ∨
          s₁.machine.counter.toNat = (s.machine.counter.toNat + 2) % 4096 ∧
            s₂.machine.counter.toNat = (s.machine.counter.toNat + 4) % 4096) := by
  refine ⟨cycle_counter, ?_⟩
  intro a b hab h s
  obtain ⟨ha, hb⟩ := hab.conditional
  obtain ⟨s₁, hs₁, hcounter₁⟩ := execute_conditional ha h s
  obtain ⟨s₂, hs₂, hcounter₂⟩ := execute_conditional hb h s
  refine ⟨s₁, s₂, hs₁, hs₂, ?_⟩
  have hopposite := hab.skips s.machine
  cases hskips : s.machine.skips a with
  | true =>
    have hpasses : ¬ s.machine.skips b = true := by
      rw [hopposite, hskips]
      nofun
    rw [Machine.behind, if_pos hskips] at hcounter₁
    rw [Machine.behind, if_neg hpasses] at hcounter₂
    omega
  | false =>
    have hpasses : ¬ s.machine.skips a = true := Bool.eq_false_iff.1 hskips
    have hother : s.machine.skips b = true := by
      rw [hopposite, hskips]
      rfl
    rw [Machine.behind, if_neg hpasses] at hcounter₁
    rw [Machine.behind, if_pos hother] at hcounter₂
    omega

def comparing : Session :=
  .started .absent [0x30, 0x00]

theorem comparison_skips_or_passes :
    ∃ s' s₁ s₂, cycle .quiet comparing = .ok ⟨0x3000, .skipEqImm⟩ s' ∧
      s'.machine.counter.toNat = 0x204 ∧
      execute .quiet ⟨0x3000, .skipEqImm⟩ comparing = .ok () s₁ ∧
      execute .quiet ⟨0x4000, .skipNeImm⟩ comparing = .ok () s₂ ∧
      (s₁.machine.counter.toNat = 0x204 ∧ s₂.machine.counter.toNat = 0x202 ∨
        s₁.machine.counter.toNat = 0x202 ∧ s₂.machine.counter.toNat = 0x204) := by
  have hnext : comparing.machine.Next ⟨0x3000, .skipEqImm⟩ :=
    Session.started_next .absent (by decide) (by decide) rfl
  have hcycle := (Session.completes_of_next (h := .quiet) hnext nofun nofun rfl).cycle_eq
  have hopposite : Opcode.Opposite ⟨0x3000, .skipEqImm⟩ ⟨0x4000, .skipNeImm⟩ :=
    .imm rfl rfl rfl rfl
  have hsuccessor : comparing.machine.successor? ⟨0x3000, .skipEqImm⟩ = some 0x204 := by
    rw [comparing, Session.started_eq .absent (by decide)]
    rfl
  obtain ⟨hlaw, hpairs⟩ := counter_follows_law
  obtain ⟨s₁, s₂, hs₁, hs₂, hcounters⟩ := hpairs hopposite .quiet comparing
  have hcounter := Option.some.inj (hsuccessor.symm.trans (hlaw hcycle))
  exact ⟨_, s₁, s₂, hcycle, Int.ofNat_inj.1 hcounter.symm, hs₁, hs₂, hcounters⟩

end ChipEight
