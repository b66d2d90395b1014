import ChipEight.Proofs.Components

/-! Images copied into the memory at an address where there is room for them. -/

namespace ChipEight

section Spliced

variable {cells image : Array Byte} {a : Nat}

theorem clampBound_natCast {n i : Nat} (h : i ≤ n) : clampBound n i = i := by
  rw [clampBound, if_neg (by omega), Int.toNat_natCast, Nat.min_eq_left h]

theorem spliced_eq (h : a + image.size ≤ cells.size) :
    spliced cells a (a + image.size) image =
      cells.extract 0 a ++ image ++ cells.extract (a + image.size) cells.size := by
  have hstop : clampBound cells.size (a + image.size) = a + image.size := by
    rw [← Int.natCast_add]
    exact clampBound_natCast h
  rw [spliced, hstop, clampBound_natCast (Nat.le_of_add_right_le h),
    Nat.max_eq_right (Nat.le_add_right ..)]

theorem size_spliced (h : a + image.size ≤ cells.size) :
    (spliced cells a (a + image.size) image).size = cells.size := by
  simp only [spliced_eq h, Array.size_append, Array.size_extract]
  omega

theorem getElem?_spliced (h : a + image.size ≤ cells.size) (i : Nat) :
    (spliced cells a (a + image.size) image)[i]? =
      if a ≤ i ∧ i < a + image.size then image[i - a]? else cells[i]? := by
  have ha : (cells.extract 0 a).size = a := by
    rw [Array.size_extract]
    omega
  rw [spliced_eq h, Array.append_assoc]
  by_cases hlt : i < a
  · rw [if_neg (by omega), Array.getElem?_append_left (by omega), Array.getElem?_extract,
      if_pos (by omega), Nat.zero_add]
  rw [Array.getElem?_append_right (by omega), ha]
  by_cases hin : i < a + image.size
  · rw [if_pos (by omega), Array.getElem?_append_left (by omega)]
  · rw [if_neg (by omega), Array.getElem?_append_right (by omega), Array.getElem?_extract]
    split
    · congr 1
      omega
    · exact (Array.getElem?_eq_none (by omega)).symm

end Spliced

namespace Memory

variable (m : Memory) {image : Array Byte} {a : Nat}

theorem size_overlay (h : a + image.size ≤ m.cells.size) :
    (m.overlay image a).cells.size = m.cells.size :=
  size_spliced h

theorem cell_overlay (h : a + image.size ≤ m.cells.size) (i : Nat) :
    (m.overlay image a).cell i =
      if a ≤ i ∧ i < a + image.size then image.getD (i - a) 0 else m.cell i := by
  simp only [cell, Array.getD_eq_getD_getElem?, overlay]
  rw [getElem?_spliced h]
  split <;> rfl

end Memory

theorem Machine.load_eq (m : Machine) (program : Array Byte) :
    m.load program =
      if 3584 < program.size then .error (.programTooLarge program.size 512)
      else .ok { m with memory := m.memory.overlay program (512 : Nat) } := by
  have hroom : (Memory.programStart : Int) + program.size > 4096 ↔ 3584 < program.size := by
    rw [Memory.programStart]
    omega
  rw [load, Memory.load]
  simp only [hroom]
  split <;> rfl

end ChipEight
