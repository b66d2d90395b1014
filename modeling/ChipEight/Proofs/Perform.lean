import ChipEight.Proofs.Drawing

/-! Carrying out an instruction checks every register, cell, timer and pixel that it touches. Of these
checks only those fail that the state before it tells of. -/

namespace ChipEight

section Words

variable (a b : Byte)

theorem Byte.add_toNat : ((a + b).toNat : Int) = (a.toNat + b.toNat) % 256 := by
  rw [BitVec.toNat_add]
  omega

theorem Byte.sub_toNat : ((a - b).toNat : Int) = (a.toNat - b.toNat) % 256 := by
  have := b.isLt
  rw [BitVec.toNat_sub]
  omega

theorem Byte.half_toNat : ((a >>> 1).toNat : Int) = a.toNat / 2 := by
  rw [BitVec.toNat_ushiftRight, Nat.shiftRight_eq_div_pow]
  omega

theorem Byte.double_toNat : ((a <<< 1).toNat : Int) = a.toNat * 2 % 256 := by
  rw [BitVec.toNat_shiftLeft, Nat.shiftLeft_eq]
  omega

theorem Byte.odd_iff : a.toNat % 2 = 1 ↔ a.getLsbD 0 = true := by
  simp only [BitVec.getLsbD, Nat.testBit_zero, decide_eq_true_eq]

theorem Byte.high_iff : a.toNat / 128 % 2 = 1 ↔ a.msb = true := by
  have := a.isLt
  rw [BitVec.msb_eq_decide, decide_eq_true_eq]
  omega

theorem Byte.eq_iff_toNat : a.toNat = b.toNat ↔ a = b :=
  BitVec.toNat_inj

theorem Byte.masked_toNat (v : Int) :
    ((BitVec.ofInt 8 v &&& b).toNat : Int) = ((v % 256).toNat &&& b.toNat : Nat) := by
  rw [BitVec.toNat_and, BitVec.toNat_ofInt]
  rfl

theorem Nibble.widened_toNat (v : Int) :
    (((BitVec.ofInt 4 v).setWidth 8 : Byte).toNat : Int) = v % 16 := by
  rw [BitVec.toNat_setWidth, BitVec.toNat_ofInt]
  omega

theorem Address.wrap_toNat (i : Address) : Address.wrap i.toNat = i := by
  rw [Address.wrap, BitVec.ofInt_natCast, BitVec.ofNat_toNat, BitVec.setWidth_eq]

theorem Address.wrap_add (i : Address) : Address.wrap (i.toNat + a.toNat) = i + a.setWidth 12 := by
  apply BitVec.eq_of_toNat_eq
  have hw := Address.toNat_wrap (i.toNat + a.toNat)
  have := a.isLt
  rw [BitVec.toNat_add, BitVec.toNat_setWidth]
  omega

theorem Byte.key_eq : BitVec.ofInt 4 ((a.toNat % 16 : Nat) : Int) = a.setWidth 4 := by
  apply BitVec.eq_of_toNat_eq
  rw [BitVec.ofInt_natCast, BitVec.toNat_ofNat, BitVec.toNat_setWidth]
  omega

theorem Byte.glyph_eq :
    Address.wrap ((Memory.fontStart + a.toNat % 16 * Font.height : Nat) : Int) =
      Machine.glyphAddress (a.setWidth 4) := by
  rw [Address.wrap, BitVec.ofInt_natCast, Machine.glyphAddress, BitVec.toNat_setWidth]

end Words

namespace MachineM

open Actions

variable (m : Machine)

theorem storeAll_apply (bs : List Byte) {a : Nat} (ha : a ≤ 4096) :
    storeAll a (bs.map (·.toNat)) m =
      ended (if 4096 < a + bs.length then some (.memoryAccess 4096) else none)
        { m with memory := m.memory.overwrite a bs } := by
  induction bs generalizing a m with
  | nil =>
    rw [if_neg (by simpa using ha), Memory.overwrite_nil]
    rfl
  | cons b bs ih =>
    rw [List.map_cons, storeAll, bind_apply]
    obtain hlt | rfl := Nat.lt_or_eq_of_le ha
    · rw [writeCell_of_lt m hlt b rfl, proceed_ok, ih _ hlt]
      simp only [Memory.overwrite_cons, List.length_cons, Nat.add_right_comm a 1, Nat.add_assoc]
    · have hpast : 4096 < 4096 + (b :: bs).length := Nat.lt_add_of_pos_right (Nat.zero_lt_succ _)
      rw [writeCell_of_le m (Nat.le_refl _), m.memory.overwrite_of_le (Nat.le_refl _), if_pos hpast]
      rfl

theorem storeRegisters_eq (a k n : Nat) (hn : k + n ≤ 16) :
    storeRegisters a (List.range' k n) m =
      storeAll (a + k) (((List.range' k n).map fun i => m.v (BitVec.ofNat 4 i)).map (·.toNat)) m := by
  induction n generalizing k m with
  | zero => rfl
  | succ n ih =>
    rw [List.range'_succ, List.map_cons, List.map_cons, storeRegisters, storeAll, bind_apply,
      bind_apply, readV_of_lt m (by omega), proceed_ok, bind_apply]
    obtain hlt | hle := Nat.lt_or_ge (a + k) 4096
    · rw [writeCell_of_lt m hlt _ rfl, proceed_ok, proceed_ok, ih _ _ (by omega)]
      rfl
    · rw [writeCell_of_le m hle, proceed_error, proceed_error]

theorem loadRegisters_apply {a : Nat} (r : Registers) (k n : Nat) (hn : k + n ≤ 16)
    (ha : a + k ≤ 4096) (hm : m.registers = r.loaded m.memory a k) :
    loadRegisters a (List.range' k n) m =
      ended (if 4096 < a + (k + n) then some (.memoryAccess 4096) else none)
        { m with registers := r.loaded m.memory a (k + n) } := by
  induction n generalizing k m with
  | zero =>
    rw [if_neg (by omega), Nat.add_zero, ← hm]
    rfl
  | succ n ih =>
    rw [List.range'_succ, loadRegisters, bind_apply]
    obtain hlt | heq := Nat.lt_or_eq_of_le ha
    · have hnext : (m.setV (BitVec.ofNat 4 k) (m.memory.cell (a + k))).registers =
          r.loaded m.memory a (k + 1) := by
        rw [← r.loaded_succ m.memory (by omega) hlt, ← hm]
        rfl
      rw [readCell_of_lt m hlt, proceed_ok, bind_apply, writeV_of_lt m (by omega), proceed_ok,
        ih _ (k + 1) (by omega) (by omega) hnext, Nat.add_right_comm k 1 n, Nat.add_assoc]
      rfl
    · rw [readCell_of_le m (Nat.le_of_eq heq.symm), proceed_error, if_pos (by omega),
        r.loaded_past _ (Nat.le_of_eq heq.symm), ← hm, heq]
      rfl

end MachineM

open MachineM Actions in
theorem Opcode.perform_apply (op : Opcode) (answer : Int) (m : Machine) :
    op.perform answer m = ended (m.fault? op) (m.effect op answer) := by
  have hx : op.x.toNat < 16 := op.x.isLt
  have hi : m.index.toNat ≤ 4096 := Nat.le_of_lt m.index.isLt
  unfold perform Machine.fault? Machine.effect
  -- in each case the checks are rewritten away, and what is written is recognised as a byte
  cases op.form with
  | callMachineRoutine => rfl
  | clearScreen => rfl
  | ret =>
    by_cases h : m.stack.depth = 0
    · simp only [bind_apply, pop_of_empty m h, proceed_error, CallStack.pop_of_empty h, if_pos h,
        ended]
    · obtain ⟨⟨a, stack⟩, hpop⟩ : ∃ t, m.stack.pop = .ok t := ⟨_, dif_neg h⟩
      simp only [bind_apply, pop_of_ok m hpop, proceed_ok, jump_apply, modify_apply, hpop, if_neg h,
        ended]
      rfl
  | jump =>
    simp only [jump_apply, Address.wrap_toNat, ended]
  | call =>
    by_cases h : m.stack.depth = 16
    · simp only [bind_apply, get_apply, proceed_ok, push_of_full m _ h, proceed_error,
        CallStack.push_of_full h, if_pos h, ended]
    · have hlt : m.stack.depth < 16 := Nat.lt_of_le_of_ne m.stack.depth_le h
      obtain ⟨stack, hpush⟩ : ∃ t, m.stack.push m.counter.toNat = .ok t := ⟨_, dif_pos hlt⟩
      simp only [bind_apply, get_apply, proceed_ok, push_of_ok m hpush, jump_apply,
        Address.wrap_toNat, hpush, if_neg h, ended]
  | skipEqImm =>
    simp only [bind_apply, readV_apply, proceed_ok, skipIf_apply, Byte.eq_iff_toNat, ended]
  | skipNeImm =>
    simp only [bind_apply, readV_apply, proceed_ok, skipIf_apply, Byte.eq_iff_toNat, ended, Ne]
  | skipEqReg =>
    simp only [bind_apply, readV_apply, proceed_ok, skipIf_apply, Byte.eq_iff_toNat, ended]
  | setImm => exact writeV_apply m op.x op.nn rfl
  | addImm =>
    simp only [bind_apply, readV_apply, proceed_ok, ended]
    exact writeV_apply m op.x _ (Byte.add_toNat _ _)
  | setReg =>
    simp only [bind_apply, readV_apply, proceed_ok, ended]
    exact writeV_apply m op.x _ rfl
  | or =>
    simp only [bind_apply, readV_apply, proceed_ok, ended]
    exact writeV_apply m op.x _ (congrArg _ (BitVec.toNat_or ..))
  | and =>
    simp only [bind_apply, readV_apply, proceed_ok, ended]
    exact writeV_apply m op.x _ (congrArg _ (BitVec.toNat_and ..))
  | xor =>
    simp only [bind_apply, readV_apply, proceed_ok, ended]
    exact writeV_apply m op.x _ (congrArg _ (BitVec.toNat_xor ..))
  | addReg =>
    simp only [bind_apply, readV_apply, proceed_ok, ended]
    exact writeWithFlag_apply m op.x _ (Byte.add_toNat _ _) _
  | subReg =>
    simp only [bind_apply, readV_apply, proceed_ok, ended]
    exact writeWithFlag_apply m op.x _ (Byte.sub_toNat _ _) _
  | shr =>
    simp only [bind_apply, readV_apply, proceed_ok, ended, Byte.odd_iff, Bool.decide_eq_true]
    exact writeWithFlag_apply m op.x _ (Byte.half_toNat _) _
  | subnReg =>
    simp only [bind_apply, readV_apply, proceed_ok, ended]
    exact writeWithFlag_apply m op.x _ (Byte.sub_toNat _ _) _
  | shl =>
    simp only [bind_apply, readV_apply, proceed_ok, ended, Byte.high_iff, Bool.decide_eq_true]
    exact writeWithFlag_apply m op.x _ (Byte.double_toNat _) _
  | skipNeReg =>
    simp only [bind_apply, readV_apply, proceed_ok, skipIf_apply, Byte.eq_iff_toNat, ended, Ne]
  | setAddress =>
    simp only [point_apply, Address.wrap_toNat, ended]
  | jumpPlusV0 =>
    simp only [bind_apply, readV_zero, proceed_ok, jump_apply, Address.wrap_add, ended]
  | rand => exact writeV_apply m op.x _ (Byte.masked_toNat _ _)
  | draw => exact draw_apply m op
  | skipIfPressed =>
    simp only [bind_apply, readV_apply, get_apply, proceed_ok, skipIf_apply, ended, Keypad.isHeld,
      Byte.key_eq]
  | skipIfNotPressed =>
    simp only [bind_apply, readV_apply, get_apply, proceed_ok, skipIf_apply, ended, Keypad.isHeld,
      Byte.key_eq]
  | readDelay =>
    simp only [bind_apply, get_apply, proceed_ok, ended]
    exact writeV_apply m op.x m.delay.value rfl
  | waitKey => exact writeV_apply m op.x _ (Nibble.widened_toNat answer)
  | setDelay =>
    simp only [bind_apply, readV_apply, proceed_ok, resetDelay_apply, ended]
  | setSound =>
    simp only [bind_apply, readV_apply, proceed_ok, resetSound_apply, ended]
  | addToAddress =>
    simp only [bind_apply, get_apply, readV_apply, proceed_ok, point_apply, Address.wrap_add, ended]
  | fontAddress =>
    simp only [bind_apply, readV_apply, proceed_ok, point_apply, Byte.glyph_eq, ended]
  | storeBcd =>
    show (readV op.x.toNat >>= _) m = ended (m.beyond? 3) _
    rw [bind_apply, readV_apply, proceed_ok, bind_apply, get_apply, proceed_ok,
      ← map_toNat_decimalDigits, storeAll_apply m _ hi, length_decimalDigits, Machine.beyond?]
  | storeRegs =>
    show ((get : MachineM Machine) >>= _) m = ended (m.beyond? (op.x.toNat + 1)) _
    rw [bind_apply, get_apply, proceed_ok, List.range_eq_range',
      storeRegisters_eq m _ _ _ (by omega), Nat.add_zero, storeAll_apply m _ hi, List.length_map,
      List.length_range', Machine.beyond?, ← List.range_eq_range']
  | loadRegs =>
    have hload := loadRegisters_apply m (a := m.index.toNat) m.registers 0 (op.x.toNat + 1)
      (by omega) hi (m.registers.loaded_zero _ _).symm
    show ((get : MachineM Machine) >>= _) m = ended (m.beyond? (op.x.toNat + 1)) _
    rw [bind_apply, get_apply, proceed_ok, List.range_eq_range', hload, Nat.zero_add,
      Machine.beyond?]

end ChipEight
