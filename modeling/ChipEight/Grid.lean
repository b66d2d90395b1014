/-! Rectangular arrays, stored row after row. -/

namespace ChipEight

structure Grid (α : Type) (w h : Nat) where
  cells : Vector α (w * h)
deriving DecidableEq, Repr

namespace Grid

variable {α : Type} {w h : Nat}

theorem index_lt {x y : Nat} (hxy : x < w ∧ y < h) : x + y * w < w * h := by
  have : (y + 1) * w ≤ h * w := Nat.mul_le_mul_right w hxy.2
  rw [Nat.add_mul, Nat.one_mul] at this
  rw [Nat.mul_comm w h]
  omega

def fill (a : α) : Grid α w h :=
  ⟨Vector.replicate (w * h) a⟩

def get? (g : Grid α w h) (x y : Nat) : Option α :=
  if hxy : x < w ∧ y < h then
    have := index_lt hxy
    some g.cells[x + y * w]
  else none

def at? (g : Grid α w h) (x y : Int) : Option α :=
  if 0 ≤ x ∧ 0 ≤ y then g.get? x.toNat y.toNat else none

def put (g : Grid α w h) (x y : Nat) (a : α) : Grid α w h :=
  if hxy : x < w ∧ y < h then
    have := index_lt hxy
    ⟨g.cells.set (x + y * w) a⟩
  else g

def row (g : Grid α w h) (y : Nat) : List α :=
  (g.cells.toArray.extract (y * w) ((y + 1) * w)).toList

def rows (g : Grid α w h) : List (List α) :=
  (List.range h).map g.row

end Grid

end ChipEight
