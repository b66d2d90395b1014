import Mathlib.Algebra.Ring.Int.Defs
import ChipEight.Machine.State

/-! The components of a machine cell by cell, and the checks that stand before them. -/

namespace ChipEight

theorem ok_bind {ε α β : Type} (a : α) (f : α → Except ε β) : (Except.ok a >>= f) = f a := rfl

theorem error_bind {ε α β : Type} (e : ε) (f : α → Except ε β) :
    ((Except.error e : Except ε α) >>= f) = Except.error e := rfl

theorem fit?_eq_none_iff {n : Nat} {v : Int} : fit? n v = none ↔ ¬ (0 ≤ v ∧ v < 2 ^ n) := by
  rw [← Option.not_isSome_iff_eq_none, Option.isSome_iff_exists]
  refine not_congr ⟨?_, fun hv => ⟨BitVec.ofInt n v, ?_⟩⟩
  · rintro ⟨b, hb⟩
    rw [← fit?_eq_some_iff.1 hb]
    exact ⟨Int.natCast_nonneg _, mod_cast b.isLt⟩
  · have hmod : v % (2 ^ n : Nat) = v := Int.emod_eq_of_lt hv.1 (mod_cast hv.2)
    rw [fit?_eq_some_iff, BitVec.toNat_ofInt, hmod, Int.toNat_of_nonneg hv.1]

theorem exists_toNat_eq_or_unfit (n : Nat) (v : Int) :
    (∃ b : BitVec n, v = b.toNat) ∨ fit? n v = none := by
  cases hv : fit? n v with
  | none => exact .inr rfl
  | some b => exact .inl ⟨b, (fit?_eq_some_iff.1 hv).symm⟩

theorem fit_toNat {n : Nat} (e : RangeError) (b : BitVec n) : fit n e b.toNat = .ok b := by
  rw [fit, fit?_toNat]

theorem fit_of_unfit {n : Nat} {v : Int} (hv : fit? n v = none) (e : RangeError) :
    fit n e v = .error (.outOfRange e) := by
  rw [fit, hv]

namespace Bank

variable {α : Type}

theorem ext_get {b c : Bank α} (h : ∀ i, b.get i = c.get i) : b = c := by
  obtain ⟨b⟩ := b
  obtain ⟨c⟩ := c
  congr 1
  ext i hi
  exact h (BitVec.ofFin ⟨i, hi⟩)

theorem set_set (b : Bank α) (i : Nibble) (a c : α) : (b.set i a).set i c = b.set i c := by
  apply ext_get
  intro j
  by_cases h : j = i <;> simp only [get_set, h, if_true, if_false]

end Bank

namespace Registers

theorem read_toNat (r : Registers) (i : Nibble) : r.read i.toNat = .ok (r.get i) := by
  rw [read, registerIndex, fit?_toNat, ok_bind]
  rfl

theorem write_toNat (r : Registers) (i : Nibble) (b : Byte) :
    r.write i.toNat b.toNat = .ok (r.set i b) := by
  rw [write, registerIndex, fit?_toNat, ok_bind, fit_toNat, ok_bind]
  rfl

end Registers

theorem Timer.ofInt_toNat (b : Byte) : Timer.ofInt b.toNat = .ok ⟨b⟩ := by
  rw [Timer.ofInt, fit_toNat, ok_bind]
  rfl

namespace Memory

def cell (m : Memory) (a : Nat) : Byte :=
  m.cells.getD a 0

theorem ext_cell {m n : Memory} (hs : m.cells.size = n.cells.size)
    (h : ∀ a, m.cell a = n.cell a) : m = n := by
  obtain ⟨ms, hm⟩ := m
  obtain ⟨ns, hn⟩ := n
  congr 1
  apply Array.ext hs
  intro i hi hj
  have := h i
  simpa only [cell, Array.getD_eq_getD_getElem?, Array.getElem?_eq_getElem, hi, hj,
    Option.getD_some] using this

theorem read_eq_cell (m : Memory) {a : Nat} (h : a < 4096) : m.read a = .ok (m.cell a) := by
  have hs : a < m.cells.size := Nat.lt_of_lt_of_le h m.size_ge
  have hr : (0 : Int) ≤ a ∧ (a : Int) < 4096 := by omega
  simp only [read, dif_pos hr, cell, Array.getD_eq_getD_getElem?, Int.toNat_natCast,
    Array.getElem?_eq_getElem hs, Option.getD_some]

theorem read_of_le (m : Memory) {a : Nat} (h : 4096 ≤ a) : m.read a = .error (.memoryAccess a) := by
  rw [read, dif_neg (by omega)]

def overwrite (m : Memory) (a : Nat) (bs : List Byte) : Memory where
  cells := m.cells.mapIdx fun i b => if a ≤ i ∧ i < 4096 then bs.getD (i - a) b else b
  size_ge := by simpa only [Array.size_mapIdx] using m.size_ge

@[simp] theorem size_overwrite (m : Memory) (a : Nat) (bs : List Byte) :
    (m.overwrite a bs).cells.size = m.cells.size := Array.size_mapIdx

theorem cell_overwrite (m : Memory) (a : Nat) (bs : List Byte) (i : Nat) :
    (m.overwrite a bs).cell i =
      if a ≤ i ∧ i < 4096 then bs.getD (i - a) (m.cell i) else m.cell i := by
  simp only [overwrite, cell, Array.getD_eq_getD_getElem?, Array.getElem?_mapIdx]
  by_cases hi : i < m.cells.size
  · simp only [Array.getElem?_eq_getElem hi, Option.map_some, Option.getD_some]
  · have := m.size_ge
    rw [if_neg (by omega)]
    simp only [Array.getElem?_eq_none (Nat.le_of_not_lt hi), Option.map_none]

theorem overwrite_nil (m : Memory) (a : Nat) : m.overwrite a [] = m := by
  apply ext_cell (size_overwrite ..)
  intro i
  rw [cell_overwrite]
  split <;> rfl

theorem overwrite_of_le (m : Memory) {a : Nat} (h : 4096 ≤ a) (bs : List Byte) :
    m.overwrite a bs = m := by
  apply ext_cell (size_overwrite ..)
  intro i
  rw [cell_overwrite, if_neg (by omega)]

theorem overwrite_cons (m : Memory) (a : Nat) (b : Byte) (bs : List Byte) :
    (m.overwrite a [b]).overwrite (a + 1) bs = m.overwrite a (b :: bs) := by
  apply ext_cell (by simp only [size_overwrite])
  intro i
  simp only [cell_overwrite]
  by_cases hi : a ≤ i ∧ i < 4096
  · obtain rfl | hlt := Nat.eq_or_lt_of_le hi.1
    · rw [if_neg (by omega), if_pos hi, if_pos hi, Nat.sub_self]
      rfl
    · obtain ⟨j, rfl⟩ : ∃ j, i = a + 1 + j := ⟨i - (a + 1), by omega⟩
      rw [if_pos (by omega), if_pos hi, if_pos hi, show a + 1 + j - a = j + 1 by omega,
        Nat.add_sub_cancel_left]
      rfl
  · rw [if_neg (by omega), if_neg hi, if_neg hi]

theorem put_eq_overwrite (m : Memory) {a : Nat} (h : a < 4096) (b : Byte) :
    m.put a b = .ok (m.overwrite a [b]) := by
  have hr : (0 : Int) ≤ a ∧ (a : Int) < 4096 := by omega
  rw [put, dif_pos hr]
  refine congrArg Except.ok (ext_cell (by simp only [size_overwrite, Array.size_set]) ?_)
  intro i
  have hs : a < m.cells.size := Nat.lt_of_lt_of_le h m.size_ge
  rw [cell_overwrite]
  simp only [cell, Array.getD_eq_getD_getElem?, Int.toNat_natCast, Array.getElem?_set]
  by_cases hi : a = i
  · subst hi
    simp [h]
  · rw [if_neg hi]
    by_cases hai : a ≤ i ∧ i < 4096
    · obtain ⟨j, rfl⟩ : ∃ j, i = a + 1 + j := ⟨i - (a + 1), by omega⟩
      rw [if_pos hai, show a + 1 + j - a = j + 1 by omega]
      rfl
    · rw [if_neg hai]

theorem write_toNat (m : Memory) {a : Nat} (h : a < 4096) (b : Byte) :
    m.write a b.toNat = .ok (m.overwrite a [b]) := by
  rw [write, read_eq_cell m h, ok_bind, fit_toNat, ok_bind, put_eq_overwrite m h b]

theorem write_of_le (m : Memory) {a : Nat} (h : 4096 ≤ a) (v : Int) :
    m.write a v = .error (.memoryAccess a) := by
  rw [write, read_of_le m h, error_bind]

theorem readWord_eq (m : Memory) {a : Nat} (h : a + 1 < 4096) :
    m.readWord a = .ok (m.cell a ++ m.cell (a + 1)) := by
  rw [readWord, m.read_eq_cell (Nat.lt_of_succ_lt h), ok_bind, ← Int.natCast_succ,
    m.read_eq_cell h, ok_bind]
  rfl

theorem readWord_of_last (m : Memory) {a : Nat} (h : a + 1 = 4096) :
    m.readWord a = .error (.memoryAccess 4096) := by
  rw [readWord, m.read_eq_cell (show a < 4096 by omega), ok_bind, ← Int.natCast_succ,
    m.read_of_le (Nat.le_of_eq h.symm), error_bind, h]
  rfl

end Memory

end ChipEight
