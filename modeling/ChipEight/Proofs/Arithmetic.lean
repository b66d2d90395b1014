import ChipEight.Proofs.Execution

/-! The instructions that calculate with registers: what they put into a register and into the flag, also where
the two are the same register. -/

namespace ChipEight

structure Calculation where
  result : Int
  flag : Option Bool

def Form.calculation? (f : Form) (vx vy nn : Nat) : Option Calculation :=
  match f with
  | .setImm => some ⟨nn, none⟩
  | .addImm => some ⟨(vx + nn) % 256, none⟩
  | .setReg => some ⟨vy, none⟩
  | .or => some ⟨(vx ||| vy : Nat), none⟩
  | .and => some ⟨(vx &&& vy : Nat), none⟩
  | .xor => some ⟨(vx ^^^ vy : Nat), none⟩
  | .addReg => some ⟨(vx + vy) % 256, some (255 < vx + vy)⟩
  | .subReg => some ⟨(vx - vy) % 256, some (vy ≤ vx)⟩
  | .subnReg => some ⟨(vy - vx) % 256, some (vx ≤ vy)⟩
  | .shr => some ⟨vx / 2, some (vx % 2 = 1)⟩
  | .shl => some ⟨2 * vx % 256, some (128 ≤ vx)⟩
  | _ => none

namespace Machine

def calculation? (m : Machine) (op : Opcode) : Option Calculation :=
  op.form.calculation? (m.v op.x).toNat (m.v op.y).toNat op.nn.toNat

/-- The second machine is the first one after a calculation, the result of which goes to the register `x`.
Where that is the flag's own register, the flag is lost. -/
structure Calculates (m : Machine) (x : Nibble) (c : Calculation) (m' : Machine) : Prop where
  result_eq : ((m'.v x).toNat : Int) = c.result
  flag_eq : ∀ flag, c.flag = some flag → x ≠ Registers.flag →
    m'.v Registers.flag = if flag then 1 else 0
  register_eq : ∀ i, i ≠ x → (i = Registers.flag → c.flag = none) → m'.v i = m.v i
  rest_eq : m' = { m with
    registers := m'.registers
    counter := m.counter + 2
    current := m.counter }

variable {m : Machine} {op : Opcode} {b : Byte} {result : Int}

theorem setV_v (x i : Nibble) : (m.setV x b).v i = if i = x then b else m.v i :=
  Bank.get_set ..

theorem enter_of_not_setsCounter (hop : op.form.setsCounter = false) :
    m.enter op = { m with current := m.counter, counter := m.counter + 2 } := by
  rw [enter_eq, hop]
  rfl

theorem Calculates.of_setV (hop : op.form.setsCounter = false) (hb : (b.toNat : Int) = result) :
    m.Calculates op.x ⟨result, none⟩ ((m.enter op).setV op.x b) := by
  refine ⟨?_, nofun, fun i hi _ => ?_, ?_⟩
  · rw [setV_v, if_pos rfl, hb]
  · rw [setV_v, if_neg hi, enter_v]
  · rw [enter_of_not_setsCounter hop]
    rfl

theorem Calculates.of_setWithFlag (hop : op.form.setsCounter = false)
    (hb : (b.toNat : Int) = result) {flag flag' : Bool} (hflag : flag = flag') :
    m.Calculates op.x ⟨result, some flag'⟩ ((m.enter op).setWithFlag op.x b flag) := by
  subst hflag
  refine ⟨?_, fun flag' hflag hx => ?_, fun i hi hkept => ?_, ?_⟩
  · rw [setWithFlag, setV_v, if_pos rfl, hb]
  · obtain rfl : flag = flag' := Option.some.inj hflag
    rw [setWithFlag, setV_v, if_neg hx.symm, setV_v, if_pos rfl]
  · have hne : i ≠ Registers.flag := fun h => Option.some_ne_none flag (hkept h)
    rw [setWithFlag, setV_v, if_neg hi, setV_v, if_neg hne, enter_v]
  · rw [enter_of_not_setsCounter hop]
    rfl

variable {c : Calculation}

theorem plain_of_calculation (hc : m.calculation? op = some c) :
    op.form.setsCounter = false ∧ op.form ≠ .rand ∧ op.form ≠ .waitKey ∧ m.fault? op = none := by
  unfold calculation? Form.calculation? at hc
  unfold fault?
  cases hop : op.form with
  | setImm | addImm | setReg | or | and | xor | addReg | subReg | subnReg | shr | shl =>
    exact ⟨rfl, nofun, nofun, rfl⟩
  | _ =>
    rw [hop] at hc
    cases hc

theorem calculates_effect (hc : m.calculation? op = some c) (answer : Int) :
    m.Calculates op.x c ((m.enter op).effect op answer) := by
  obtain ⟨hcounter, -⟩ := plain_of_calculation hc
  unfold calculation? Form.calculation? at hc
  unfold effect
  simp only [enter_v]
  -- the operands are read before the flag is written, so that nothing depends on which registers they are
  cases hop : op.form <;> rw [hop] at hc <;> cases hc
  case setImm => exact .of_setV hcounter rfl
  case addImm => exact .of_setV hcounter (Byte.add_toNat ..)
  case setReg => exact .of_setV hcounter rfl
  case or => exact .of_setV hcounter (congrArg _ (BitVec.toNat_or ..))
  case and => exact .of_setV hcounter (congrArg _ (BitVec.toNat_and ..))
  case xor => exact .of_setV hcounter (congrArg _ (BitVec.toNat_xor ..))
  case addReg => exact .of_setWithFlag hcounter (Byte.add_toNat ..) rfl
  case subReg => exact .of_setWithFlag hcounter (Byte.sub_toNat ..) rfl
  case subnReg => exact .of_setWithFlag hcounter (Byte.sub_toNat ..) rfl
  case shr =>
    refine .of_setWithFlag hcounter (Byte.half_toNat _) ?_
    rw [Bool.eq_iff_iff, ← Byte.odd_iff, decide_eq_true_eq]
  case shl =>
    refine .of_setWithFlag hcounter ?_ (BitVec.msb_eq_decide _)
    rw [Byte.double_toNat, Int.mul_comm]

end Machine

/-- Every calculation is completed, and its result and its flag are those of the values before it, whichever
registers it takes. -/
theorem calculated_under_aliasing (h : Host) {s : Session} {op : Opcode} {c : Calculation}
    (hc : s.machine.calculation? op = some c) :
    ∃ s', execute h op s = .ok () s' ∧ s.machine.Calculates op.x c s'.machine ∧
      s' = { s with machine := s'.machine, printed := s'.printed } := by
  obtain ⟨-, hrand, hkey, hf⟩ := Machine.plain_of_calculation hc
  obtain ⟨s', hs', hmachine, hrest⟩ := execute_unasked h hrand hkey hf
  refine ⟨s', hs', ?_, hrest⟩
  rw [hmachine]
  exact Machine.calculates_effect hc 0

theorem carry_lost_in_sum :
    ∃ s₁ s₂ s₃, execute .quiet ⟨0x6FFF, .setImm⟩ (.fresh .absent) = .ok () s₁ ∧
      execute .quiet ⟨0x6003, .setImm⟩ s₁ = .ok () s₂ ∧
      s₂.machine.calculation? ⟨0x8F04, .addReg⟩ = some ⟨2, some true⟩ ∧
      execute .quiet ⟨0x8F04, .addReg⟩ s₂ = .ok () s₃ ∧
      s₂.machine.Calculates 0xF ⟨2, some true⟩ s₃.machine ∧
      s₃.machine.v Registers.flag = 2 ∧ s₃.machine.v 0 = 3 := by
  have hc₁ : (Session.fresh .absent).machine.calculation? ⟨0x6FFF, .setImm⟩ =
      some ⟨255, none⟩ := rfl
  obtain ⟨s₁, hs₁, hfull, -⟩ := calculated_under_aliasing .quiet hc₁
  have hc₂ : s₁.machine.calculation? ⟨0x6003, .setImm⟩ = some ⟨3, none⟩ := rfl
  obtain ⟨s₂, hs₂, hthree, -⟩ := calculated_under_aliasing .quiet hc₂
  have hflag : s₂.machine.v Registers.flag = 255 := by
    rw [hthree.register_eq _ (by decide) fun _ => rfl]
    exact BitVec.eq_of_toNat_eq (Int.ofNat_inj.1 hfull.result_eq)
  have hzero : s₂.machine.v 0 = 3 := BitVec.eq_of_toNat_eq (Int.ofNat_inj.1 hthree.result_eq)
  have hc : s₂.machine.calculation? ⟨0x8F04, .addReg⟩ = some ⟨2, some true⟩ := by
    show Form.calculation? .addReg (s₂.machine.v Registers.flag).toNat (s₂.machine.v 0).toNat _ = _
    rw [hflag, hzero]
    rfl
  obtain ⟨s₃, hs₃, hsum, -⟩ := calculated_under_aliasing .quiet hc
  refine ⟨s₁, s₂, s₃, hs₁, hs₂, hc, hs₃, hsum, ?_, ?_⟩
  · exact BitVec.eq_of_toNat_eq (Int.ofNat_inj.1 hsum.result_eq)
  · rw [hsum.register_eq 0 (by decide) (fun h => absurd h (by decide)), hzero]

end ChipEight
