import ChipEight.Proofs.Actions
import ChipEight.Proofs.Effect
import ChipEight.Proofs.Stack

/-! Checked access to the parts of a machine, where the check passes and where it fails. -/

namespace ChipEight

namespace MachineM

open Actions

variable {α : Type} (m : Machine)

theorem ofExcept_ok (a : α) : ofExcept (.ok a) m = .ok a m := rfl

theorem ofExcept_error (e : Fault) : (ofExcept (.error e) : MachineM α) m = .error e m := rfl

theorem readV_apply (x : Nibble) : readV x.toNat m = .ok (m.v x).toNat m := by
  simp only [readV, bind_apply, get_apply, Registers.read_toNat, ofExcept_ok, pure_apply,
    proceed_ok]
  rfl

theorem writeV_apply (x : Nibble) {v : Int} (b : Byte) (h : (b.toNat : Int) = v) :
    writeV x.toNat v m = .ok () (m.setV x b) := by
  subst h
  simp only [writeV, bind_apply, get_apply, Registers.write_toNat, ofExcept_ok, modify_apply,
    proceed_ok]
  rfl

theorem readV_of_lt {i : Nat} (hi : i < 16) :
    readV i m = .ok (m.v (BitVec.ofNat 4 i)).toNat m := by
  have := readV_apply m (BitVec.ofNat 4 i)
  rwa [BitVec.toNat_ofNat, Nat.mod_eq_of_lt hi] at this

theorem writeV_of_lt {i : Nat} (hi : i < 16) (b : Byte) :
    writeV i b.toNat m = .ok () (m.setV (BitVec.ofNat 4 i) b) := by
  have := writeV_apply m (BitVec.ofNat 4 i) b rfl
  rwa [BitVec.toNat_ofNat, Nat.mod_eq_of_lt hi] at this

theorem readV_of_error {i : Int} {f : Fault} (h : m.registers.read i = .error f) :
    readV i m = .error f m := by
  simp only [readV, bind_apply, get_apply, h, ofExcept_error, proceed_ok, proceed_error]

theorem writeV_of_error {i v : Int} {f : Fault} (h : m.registers.write i v = .error f) :
    writeV i v m = .error f m := by
  simp only [writeV, bind_apply, get_apply, h, ofExcept_error, proceed_ok, proceed_error]

theorem readCell_of_error {a : Int} {f : Fault} (h : m.memory.read a = .error f) :
    readCell a m = .error f m := by
  simp only [readCell, bind_apply, get_apply, h, ofExcept_error, proceed_ok, proceed_error]

theorem writeCell_of_error {a v : Int} {f : Fault} (h : m.memory.write a v = .error f) :
    writeCell a v m = .error f m := by
  simp only [writeCell, bind_apply, get_apply, h, ofExcept_error, proceed_ok, proceed_error]

theorem resetDelay_of_error {v : Int} {f : Fault} (h : Timer.ofInt v = .error f) :
    resetDelay v m = .error f m := by
  simp only [resetDelay, bind_apply, h, ofExcept_error, proceed_error]

theorem resetSound_of_error {v : Int} {f : Fault} (h : Timer.ofInt v = .error f) :
    resetSound v m = .error f m := by
  simp only [resetSound, bind_apply, h, ofExcept_error, proceed_error]

theorem readV_zero : readV 0 m = .ok (m.v 0).toNat m :=
  readV_apply m 0

theorem readCell_of_lt {a : Nat} (h : a < 4096) :
    readCell a m = .ok (m.memory.cell a).toNat m := by
  simp only [readCell, bind_apply, get_apply, Memory.read_eq_cell _ h, ofExcept_ok, pure_apply,
    proceed_ok]

theorem readCell_of_le {a : Nat} (h : 4096 ≤ a) : readCell a m = .error (.memoryAccess a) m :=
  readCell_of_error m (Memory.read_of_le _ h)

theorem writeCell_of_lt {a : Nat} (h : a < 4096) {v : Int} (b : Byte) (hv : (b.toNat : Int) = v) :
    writeCell a v m = .ok () { m with memory := m.memory.overwrite a [b] } := by
  subst hv
  simp only [writeCell, bind_apply, get_apply, Memory.write_toNat _ h, ofExcept_ok, modify_apply,
    proceed_ok]

theorem writeCell_of_le {a : Nat} (h : 4096 ≤ a) (v : Int) :
    writeCell a v m = .error (.memoryAccess a) m :=
  writeCell_of_error m (Memory.write_of_le _ h v)

theorem resetDelay_apply (b : Byte) : resetDelay b.toNat m = .ok () { m with delay := ⟨b⟩ } := by
  simp only [resetDelay, bind_apply, Timer.ofInt_toNat, ofExcept_ok, modify_apply,
    proceed_ok]

theorem resetSound_apply (b : Byte) : resetSound b.toNat m = .ok () { m with sound := ⟨b⟩ } := by
  simp only [resetSound, bind_apply, Timer.ofInt_toNat, ofExcept_ok, modify_apply,
    proceed_ok]

theorem flipPixel_apply {x y : Nat} (hxy : x < 64 ∧ y < 32) :
    flipPixel x y m =
      .ok (m.screen.isOn x y) { m with screen := m.screen.inverted (pixel x y) } := by
  have hflip : m.screen.flip x y = .ok (m.screen.isOn x y, m.screen.inverted (pixel x y)) :=
    m.screen.flip_eq_ok hxy
  simp only [flipPixel, bind_apply, get_apply, hflip, ofExcept_ok, modify_apply, pure_apply,
    proceed_ok]

theorem jump_apply (v : Int) : jump v m = .ok () { m with counter := Address.wrap v } := rfl

theorem point_apply (v : Int) : point v m = .ok () { m with index := Address.wrap v } := rfl

theorem skipIf_apply (c : Bool) : skipIf c m = .ok () (m.skipIf c) := rfl

theorem writeWithFlag_apply (x : Nibble) {v : Int} (b : Byte) (h : (b.toNat : Int) = v)
    (flag : Bool) : writeWithFlag x.toNat v flag m = .ok () (m.setWithFlag x b flag) := by
  have hflag : (((if flag then 1 else 0 : Byte).toNat : Nat) : Int) = if flag then 1 else 0 := by
    cases flag <;> rfl
  simp only [writeWithFlag, bind_apply, writeV_apply m Registers.flag _ hflag,
    writeV_apply _ x b h, proceed_ok]
  rfl

def ended (f : Option Fault) (m : Machine) : EStateM.Result Fault Machine Unit :=
  match f with
  | none => .ok () m
  | some f => .error f m

theorem push_of_full (a : Int) (h : m.stack.depth = 16) : push a m = .error .stackOverflow m := by
  simp only [push, bind_apply, get_apply, proceed_ok, CallStack.push_of_full h, ofExcept_error,
    proceed_error]

theorem push_of_ok {a : Int} {stack : CallStack} (h : m.stack.push a = .ok stack) :
    push a m = .ok () { m with stack } := by
  simp only [push, bind_apply, get_apply, proceed_ok, h, ofExcept_ok, modify_apply]

theorem pop_of_empty (h : m.stack.depth = 0) : pop m = .error .stackUnderflow m := by
  simp only [pop, bind_apply, get_apply, proceed_ok, CallStack.pop_of_empty h, ofExcept_error,
    proceed_error]

theorem pop_of_ok {a : Int} {stack : CallStack} (h : m.stack.pop = .ok (a, stack)) :
    pop m = .ok a { m with stack } := by
  simp only [pop, bind_apply, get_apply, proceed_ok, h, ofExcept_ok, modify_apply, pure_apply]

end MachineM

end ChipEight
