import ChipEight.Proofs.Arithmetic
import ChipEight.Proofs.Encoding

/-! Identities between the instructions that calculate with registers, told by the words that are executed. -/

namespace ChipEight

open Actions Text

def Word.ofNibbles (a b c d : Nibble) : Word :=
  a ++ b ++ c ++ d

def executeNibbles (h : Host) (a b c d : Nibble) : SessionM Unit :=
  executeInt h (Word.ofNibbles a b c d).toNat

theorem Opcode.digits_ofNibbles (f : Form) (a b c d : Nibble) :
    (⟨Word.ofNibbles a b c d, f⟩ : Opcode).x = b ∧ (⟨Word.ofNibbles a b c d, f⟩ : Opcode).y = c ∧
      (⟨Word.ofNibbles a b c d, f⟩ : Opcode).n = d := by
  have hnibbles := Word.nibbles_append a b c d
  simp only [Word.nibbles, List.cons.injEq, and_true] at hnibbles
  exact hnibbles.2

theorem decode_ofNibbles {f : Form} {a b c d : Nibble} (hf : f ≠ .callMachineRoutine)
    (h : List.Forall₂ (fun p e => p.admits e = true) f.template.places [a, b, c, d]) :
    decode (Word.ofNibbles a b c d) = .ok ⟨Word.ofNibbles a b c d, f⟩ := by
  rw [← Word.nibbles_append] at h
  exact decode_eq_ok_iff.2 ⟨rfl, Form.fits_of_ne hf (Template.admits_iff_places.2 h)⟩

section Executed

variable (h : Host) (s : Session) {c : Calculation}

theorem executeInt_calculates {w : Word} {op : Opcode} (hd : decode w = .ok op)
    (hc : s.machine.calculation? op = some c) :
    ∃ s', executeInt h w.toNat s = .ok () s' ∧ s.machine.Calculates op.x c s'.machine ∧
      s' = { s with machine := s'.machine, printed := s'.printed } := by
  obtain ⟨-, hrand, hkey, hf⟩ := Machine.plain_of_calculation hc
  have htraced : (s.trace h (Word.traceMark w)).machine = s.machine := Session.trace_machine ..
  rw [← htraced] at hf hc
  obtain ⟨s', hs', hmachine, hrest⟩ := execute_unasked h hrand hkey hf
  refine ⟨s', ?_, ?_, ?_⟩
  · rw [executeInt, bind_apply, decodeIntTraced_apply, hd, SessionM.ofExcept_ok, proceed_ok, hs']
  · rw [hmachine, ← htraced]
    exact Machine.calculates_effect hc 0
  · rw [hrest, Session.trace_eq]

theorem operation_calculates (f : Form) (x y : Nibble) {d : Nibble}
    (hf : f.template = ⟨0x8, .x, .y, .digit d⟩)
    (hc : ∀ nn, f.calculation? (s.machine.v x).toNat (s.machine.v y).toNat nn = some c) :
    ∃ s', executeNibbles h 0x8 x y d s = .ok () s' ∧ s.machine.Calculates x c s'.machine ∧
      s' = { s with machine := s'.machine, printed := s'.printed } := by
  have hne : f ≠ .callMachineRoutine := by
    rintro rfl
    cases hf
  have hd : decode (Word.ofNibbles 0x8 x y d) = .ok ⟨Word.ofNibbles 0x8 x y d, f⟩ := by
    refine decode_ofNibbles hne ?_
    rw [hf]
    simp [Template.places, Place.admits]
  obtain ⟨hx, hy, -⟩ := Opcode.digits_ofNibbles f 0x8 x y d
  have hop : s.machine.calculation? ⟨Word.ofNibbles 0x8 x y d, f⟩ = some c := by
    rw [Machine.calculation?, hx, hy]
    exact hc _
  have hexecuted := executeInt_calculates h s hd hop
  rwa [hx] at hexecuted

theorem constant_calculates (x a b : Nibble) :
    ∃ s', executeNibbles h 0x6 x a b s = .ok () s' ∧
      s.machine.Calculates x ⟨ofDigits 16 [a.toNat, b.toNat], none⟩ s'.machine ∧
      s' = { s with machine := s'.machine, printed := s'.printed } := by
  have hd : decode (Word.ofNibbles 0x6 x a b) = .ok ⟨Word.ofNibbles 0x6 x a b, .setImm⟩ := by
    refine decode_ofNibbles (by decide) ?_
    simp [Form.template, Template.places, Place.admits]
  obtain ⟨hx, hy, hn⟩ := Opcode.digits_ofNibbles .setImm 0x6 x a b
  have hop : s.machine.calculation? ⟨Word.ofNibbles 0x6 x a b, .setImm⟩ =
      some ⟨ofDigits 16 [a.toNat, b.toNat], none⟩ := by
    rw [Machine.calculation?, Form.calculation?, Opcode.nn_toNat, hy, hn]
  have hexecuted := executeInt_calculates h s hd hop
  rwa [hx] at hexecuted

end Executed

namespace Machine

variable {m m₁ m₂ : Machine} {x : Nibble} {c : Calculation}

theorem Calculates.unique (h₁ : m.Calculates x c m₁) (h₂ : m.Calculates x c m₂) : m₁ = m₂ := by
  have hregisters : m₁.registers = m₂.registers := by
    apply Bank.ext_get
    intro i
    show m₁.v i = m₂.v i
    by_cases hx : i = x
    · subst hx
      exact BitVec.eq_of_toNat_eq (Int.ofNat_inj.1 (h₁.result_eq.trans h₂.result_eq.symm))
    cases hflag : c.flag with
    | none => rw [h₁.register_eq i hx fun _ => hflag, h₂.register_eq i hx fun _ => hflag]
    | some flag =>
      by_cases hi : i = Registers.flag
      · subst hi
        rw [h₁.flag_eq flag hflag (Ne.symm hx), h₂.flag_eq flag hflag (Ne.symm hx)]
      · rw [h₁.register_eq i hx fun h => absurd h hi, h₂.register_eq i hx fun h => absurd h hi]
  rw [h₁.rest_eq, h₂.rest_eq, hregisters]

end Machine

namespace Session

/-- Two actions are completed and leave the same session, but for what they print. -/
def Interchangeable (s : Session) (a b : SessionM Unit) : Prop :=
  ∃ s₁ s₂, a s = .ok () s₁ ∧ b s = .ok () s₂ ∧ s₂ = { s₁ with printed := s₂.printed }

def AddsBack (s : Session) (h : Host) (x y : Nibble) : Prop :=
  ∃ s₁ s₂, executeNibbles h 0x8 x y 0x5 s = .ok () s₁ ∧
    executeNibbles h 0x8 x y 0x4 s₁ = .ok () s₂ ∧
    s₂.machine.v x = s.machine.v x ∧ s₂.machine.v y = s.machine.v y ∧
    (s₂.machine.v Registers.flag).toNat = 1 - ((s₁.machine.v Registers.flag).toNat : Int)

/-- The differences of two registers in both directions cancel out, and the flags tell whether both are
zero. -/
def DiffersBothWays (s : Session) (h : Host) (x y : Nibble) : Prop :=
  ∃ s₁ s₂, executeNibbles h 0x8 x y 0x5 s = .ok () s₁ ∧
    executeNibbles h 0x8 x y 0x7 s = .ok () s₂ ∧
    ((s₁.machine.v x).toNat + (s₂.machine.v x).toNat) % 256 = 0 ∧
    (s₁.machine.v Registers.flag = 1 ∧ s₂.machine.v Registers.flag = 1 ↔
      s.machine.v x = s.machine.v y) ∧
    (s.machine.v x ≠ s.machine.v y →
      s₁.machine.v Registers.flag = 1 ∧ s₂.machine.v Registers.flag = 0 ∨
        s₁.machine.v Registers.flag = 0 ∧ s₂.machine.v Registers.flag = 1)

def Swaps (s : Session) (h : Host) (x y : Nibble) : Prop :=
  ∃ s₁ s₂ s₃, executeNibbles h 0x8 x y 0x3 s = .ok () s₁ ∧
    executeNibbles h 0x8 y x 0x3 s₁ = .ok () s₂ ∧ executeNibbles h 0x8 x y 0x3 s₂ = .ok () s₃ ∧
    s₃.machine.v x = s.machine.v y ∧ s₃.machine.v y = s.machine.v x ∧
    ∀ i, i ≠ x → i ≠ y → s₃.machine.v i = s.machine.v i

variable (s : Session) (h : Host) {x y : Nibble} {c : Calculation}

theorem interchangeable_of_calculates {a b : SessionM Unit}
    (ha : ∃ s₁, a s = .ok () s₁ ∧ s.machine.Calculates x c s₁.machine ∧
      s₁ = { s with machine := s₁.machine, printed := s₁.printed })
    (hb : ∃ s₂, b s = .ok () s₂ ∧ s.machine.Calculates x c s₂.machine ∧
      s₂ = { s with machine := s₂.machine, printed := s₂.printed }) :
    s.Interchangeable a b := by
  obtain ⟨s₁, ha, h₁, hrest₁⟩ := ha
  obtain ⟨s₂, hb, h₂, hrest₂⟩ := hb
  refine ⟨s₁, s₂, ha, hb, ?_⟩
  rw [hrest₁, hrest₂, h₁.unique h₂]

theorem shl_doubles (x y : Nibble) :
    s.Interchangeable (executeNibbles h 0x8 x y 0xE) (executeNibbles h 0x8 x x 0x4) := by
  have hsum : ∀ nn, Form.calculation? .addReg (s.machine.v x).toNat (s.machine.v x).toNat nn =
      Form.calculation? .shl (s.machine.v x).toNat (s.machine.v y).toNat nn := by
    intro nn
    have hcarry : 255 < (s.machine.v x).toNat + (s.machine.v x).toNat ↔
        128 ≤ (s.machine.v x).toNat := by omega
    simp only [Form.calculation?, hcarry, Int.two_mul]
  exact s.interchangeable_of_calculates (operation_calculates h s .shl x y rfl fun _ => rfl)
    (operation_calculates h s .addReg x x rfl hsum)

theorem xor_self_clears (x : Nibble) :
    s.Interchangeable (executeNibbles h 0x8 x x 0x3) (executeNibbles h 0x6 x 0 0) := by
  refine s.interchangeable_of_calculates (operation_calculates h s .xor x x rfl fun nn => ?_)
    (constant_calculates h s x 0 0)
  rw [Form.calculation?, Nat.xor_self]
  rfl

theorem addsBack (hxy : x ≠ y) (hx : x ≠ Registers.flag) (hy : y ≠ Registers.flag) :
    s.AddsBack h x y := by
  obtain ⟨s₁, hs₁, hsub, -⟩ := operation_calculates h s .subReg x y rfl fun _ => rfl
  obtain ⟨s₂, hs₂, hadd, -⟩ := operation_calculates h s₁ .addReg x y rfl fun _ => rfl
  have hy₁ : s₁.machine.v y = s.machine.v y := hsub.register_eq y hxy.symm fun h => absurd h hy
  have hy₂ : s₂.machine.v y = s₁.machine.v y := hadd.register_eq y hxy.symm fun h => absurd h hy
  have hdifference : ((s₁.machine.v x).toNat : Int) =
      ((s.machine.v x).toNat - (s.machine.v y).toNat) % 256 := hsub.result_eq
  have hsum : ((s₂.machine.v x).toNat : Int) =
      ((s₁.machine.v x).toNat + (s.machine.v y).toNat) % 256 := by
    rw [← hy₁]
    exact hadd.result_eq
  have hvx := (s.machine.v x).isLt
  have hvy := (s.machine.v y).isLt
  refine ⟨s₁, s₂, hs₁, hs₂, BitVec.eq_of_toNat_eq (by omega), hy₂.trans hy₁, ?_⟩
  -- the sum carries exactly where the difference has borrowed
  have hborrowed : 255 < (s₁.machine.v x).toNat + (s.machine.v y).toNat ↔
      ¬ (s.machine.v y).toNat ≤ (s.machine.v x).toNat := by omega
  rw [hsub.flag_eq _ rfl hx, hadd.flag_eq _ rfl hx, hy₁]
  simp only [hborrowed]
  by_cases hle : (s.machine.v y).toNat ≤ (s.machine.v x).toNat <;> simp [hle]

theorem differsBothWays (hx : x ≠ Registers.flag) : s.DiffersBothWays h x y := by
  obtain ⟨s₁, hs₁, hsub, -⟩ := operation_calculates h s .subReg x y rfl fun _ => rfl
  obtain ⟨s₂, hs₂, hsubn, -⟩ := operation_calculates h s .subnReg x y rfl fun _ => rfl
  have hdifference : ((s₁.machine.v x).toNat : Int) =
      ((s.machine.v x).toNat - (s.machine.v y).toNat) % 256 := hsub.result_eq
  have hopposite : ((s₂.machine.v x).toNat : Int) =
      ((s.machine.v y).toNat - (s.machine.v x).toNat) % 256 := hsubn.result_eq
  have hequal : s.machine.v x = s.machine.v y ↔
      (s.machine.v y).toNat ≤ (s.machine.v x).toNat ∧
        (s.machine.v x).toNat ≤ (s.machine.v y).toNat := by
    rw [BitVec.toNat_eq]
    omega
  have htotal := Nat.le_total (s.machine.v y).toNat (s.machine.v x).toNat
  refine ⟨s₁, s₂, hs₁, hs₂, by omega, ?_⟩
  rw [hsub.flag_eq _ rfl hx, hsubn.flag_eq _ rfl hx, Ne, hequal]
  by_cases hle : (s.machine.v y).toNat ≤ (s.machine.v x).toNat <;>
    by_cases hge : (s.machine.v x).toNat ≤ (s.machine.v y).toNat <;> simp [hle, hge]
  omega

theorem xor_executed (x y : Nibble) :
    ∃ s', executeNibbles h 0x8 x y 0x3 s = .ok () s' ∧
      s'.machine.v x = s.machine.v x ^^^ s.machine.v y ∧
      ∀ i, i ≠ x → s'.machine.v i = s.machine.v i := by
  obtain ⟨s', hs', hc, -⟩ := operation_calculates h s .xor x y rfl fun _ => rfl
  refine ⟨s', hs', BitVec.eq_of_toNat_eq ?_, fun i hi => hc.register_eq i hi fun _ => rfl⟩
  rw [BitVec.toNat_xor]
  exact Int.ofNat_inj.1 hc.result_eq

theorem swaps (hxy : x ≠ y) : s.Swaps h x y := by
  obtain ⟨s₁, hs₁, hx₁, hrest₁⟩ := s.xor_executed h x y
  obtain ⟨s₂, hs₂, hy₂, hrest₂⟩ := s₁.xor_executed h y x
  obtain ⟨s₃, hs₃, hx₃, hrest₃⟩ := s₂.xor_executed h x y
  -- the sum of both meets the one register and leaves the other
  have hy : s₂.machine.v y = s.machine.v x := by
    rw [hy₂, hrest₁ y hxy.symm, hx₁, BitVec.xor_comm, BitVec.xor_assoc, BitVec.xor_self,
      BitVec.xor_zero]
  refine ⟨s₁, s₂, s₃, hs₁, hs₂, hs₃, ?_, ?_, fun i hix hiy => ?_⟩
  · rw [hx₃, hy, hrest₂ x hxy, hx₁, BitVec.xor_comm, ← BitVec.xor_assoc, BitVec.xor_self,
      BitVec.zero_xor]
  · rw [hrest₃ y hxy.symm, hy]
  · rw [hrest₃ i hix, hrest₂ i hiy, hrest₁ i hix]

/-- Identities between the instructions that calculate with registers, on any session. -/
theorem register_identities (h : Host) (s : Session) (x y : Nibble) :
    s.Interchangeable (executeNibbles h 0x8 x y 0xE) (executeNibbles h 0x8 x x 0x4) ∧
      s.Interchangeable (executeNibbles h 0x8 x x 0x3) (executeNibbles h 0x6 x 0 0) ∧
      (x ≠ y → x ≠ Registers.flag → y ≠ Registers.flag → s.AddsBack h x y) ∧
      (x ≠ Registers.flag → s.DiffersBothWays h x y) ∧ (x ≠ y → s.Swaps h x y) :=
  ⟨s.shl_doubles h x y, s.xor_self_clears h x, s.addsBack h, s.differsBothWays h, s.swaps h⟩

theorem reachable_executed {s s' : Session} (hs : s.Reachable) {h : Host} {a b c d : Nibble}
    (hexecuted : executeNibbles h a b c d s = .ok () s') : s'.Reachable := by
  have hafter : s.after [(h, .execute (Word.ofNibbles a b c d).toNat)] = s' := by
    rw [after, after, Call.action]
    exact leftBy_of_ok hexecuted
  rw [← hafter]
  exact hs.after _

theorem five_and_seven :
    ∃ s : Session, s.Reachable ∧ s.machine.v 0 = 5 ∧ s.machine.v 1 = 7 ∧
      s.Interchangeable (executeNibbles .quiet 0x8 0xF 0 0xE)
        (executeNibbles .quiet 0x8 0xF 0xF 0x4) ∧
      s.AddsBack .quiet 0 1 ∧ s.DiffersBothWays .quiet 0 1 ∧ s.Swaps .quiet 0 1 := by
  obtain ⟨s₁, hs₁, hfive, -⟩ := constant_calculates .quiet (.fresh .absent) 0 0 5
  obtain ⟨s₂, hs₂, hseven, -⟩ := constant_calculates .quiet s₁ 1 0 7
  have hfresh : (Session.fresh .absent).Reachable := ⟨.absent, [], rfl⟩
  obtain ⟨-, -, hback, hboth, hswaps⟩ := register_identities .quiet s₂ 0 1
  refine ⟨s₂, reachable_executed (reachable_executed hfresh hs₁) hs₂, ?_, ?_,
    (register_identities .quiet s₂ Registers.flag 0).1, hback (by decide) (by decide) (by decide),
    hboth (by decide), hswaps (by decide)⟩
  · rw [hseven.register_eq 0 (by decide) fun _ => rfl]
    exact BitVec.eq_of_toNat_eq (Int.ofNat_inj.1 hfive.result_eq)
  · exact BitVec.eq_of_toNat_eq (Int.ofNat_inj.1 hseven.result_eq)

end Session

end ChipEight
