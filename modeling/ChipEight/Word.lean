/-! The machine's words of 4, 8, 12 and 16 bits, and sixteen cells with one for each nibble. -/

namespace ChipEight

abbrev Nibble := BitVec 4
abbrev Byte := BitVec 8
abbrev Address := BitVec 12
abbrev Word := BitVec 16

def fit? (n : Nat) (v : Int) : Option (BitVec n) :=
  if ((BitVec.ofInt n v).toNat : Int) = v then some (BitVec.ofInt n v) else none

theorem fit?_eq_some_iff {n : Nat} {v : Int} {b : BitVec n} :
    fit? n v = some b ↔ (b.toNat : Int) = v := by
  constructor
  · intro h
    unfold fit? at h
    split at h
    · next hv => rwa [← Option.some.inj h]
    · cases h
  · rintro rfl
    simp [fit?]

theorem fit?_toNat {n : Nat} (b : BitVec n) : fit? n b.toNat = some b :=
  fit?_eq_some_iff.mpr rfl

def isLong (n : Int) : Bool :=
  n.bmod 18446744073709551616 = n

structure Bank (α : Type) where
  cells : Vector α 16
deriving DecidableEq, Repr

namespace Bank

variable {α : Type}

def fill (a : α) : Bank α :=
  ⟨Vector.replicate 16 a⟩

def get (b : Bank α) (i : Nibble) : α :=
  b.cells.get i.toFin

def set (b : Bank α) (i : Nibble) (a : α) : Bank α :=
  ⟨b.cells.set i.toNat a i.isLt⟩

def toList (b : Bank α) : List α :=
  b.cells.toList

@[simp] theorem get_fill (a : α) (i : Nibble) : (fill a).get i = a := by
  simp [fill, get, Vector.get]

theorem get_set (b : Bank α) (i j : Nibble) (a : α) :
    (b.set i a).get j = if j = i then a else b.get j := by
  have hj : j.toNat < 16 := j.isLt
  have hget : ∀ c : Bank α, c.get j = c.cells[j.toNat] := fun _ => rfl
  rw [hget, hget]
  show (b.cells.set i.toNat a i.isLt)[j.toNat] = _
  rw [Vector.getElem_set]
  by_cases h : j = i
  · simp [h]
  · have : i.toNat ≠ j.toNat := fun e => h (BitVec.eq_of_toNat_eq e.symm)
    simp [h, this]

end Bank

end ChipEight
