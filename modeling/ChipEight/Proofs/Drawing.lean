import ChipEight.Proofs.Access

/-! Drawing a sprite bit by bit inverts the pixels of its rows, and stops at the first row that
cannot be read. -/

namespace ChipEight

namespace MachineM

open Actions

variable (m : Machine)

def columns (b : Byte) (x y col count px py : Nat) : Bool :=
  decide (py = y ∧ x + col ≤ px ∧ px < x + col + count) && b.getLsbD (7 - (px - x))

def maskedBy (bit : Bool) (p : Nat → Nat → Bool) (px py : Nat) : Bool :=
  bit && p px py

theorem drawBit_apply {x y : Nat} (hxy : x < 64 ∧ y < 32) (bit : Bool) :
    drawBit x y bit m = .ok () (m.drawn (maskedBy bit (pixel x y))) := by
  cases bit
  · have hdrawn : m.drawn (maskedBy false (pixel x y)) = m :=
      m.drawn_nowhere fun _ _ _ => Bool.false_and _
    rw [hdrawn]
    rfl
  · have hmeets : m.screen.meets (pixel x y) = m.screen.isOn x y := m.screen.meets_pixel hxy
    have hdrawn : m.drawn (maskedBy true (pixel x y)) = m.drawn (pixel x y) :=
      m.drawn_congr fun _ _ _ => Bool.true_and _
    rw [drawBit, if_pos rfl, bind_apply, flipPixel_apply m hxy, proceed_ok, hdrawn, Machine.drawn,
      hmeets]
    cases m.screen.isOn x y
    · rfl
    · exact writeV_apply _ Registers.flag 1 rfl

theorem columns_succ (b : Byte) (x y col count px py : Nat) :
    columns b x y col (count + 1) px py =
      (maskedBy (b.getLsbD (7 - col)) (pixel (x + col) y) px py ||
        columns b x y (col + 1) count px py) := by
  by_cases hp : px = x + col ∧ py = y
  · obtain ⟨rfl, rfl⟩ := hp
    simp [columns, maskedBy, pixel]
  · have hpix : pixel (x + col) y px py = false := by
      rwa [pixel, ← Bool.decide_and, decide_eq_false_iff_not]
    have hiff : (py = y ∧ x + col ≤ px ∧ px < x + col + (count + 1)) ↔
        py = y ∧ x + (col + 1) ≤ px ∧ px < x + (col + 1) + count := by omega
    rw [maskedBy, hpix, Bool.and_false, Bool.false_or, columns, columns]
    simp only [hiff]

theorem columns_eq_false {b : Byte} {x y col count px py : Nat}
    (h : ¬ (py = y ∧ x + col ≤ px ∧ px < x + col + count)) :
    columns b x y col count px py = false := by
  rw [columns, decide_eq_false h, Bool.false_and]

theorem drawColumns_apply (b : Byte) {x y : Nat} (hy : y < 32) (col count : Nat) :
    drawColumns x y b.toNat (List.range' col count) m =
      .ok () (m.drawn (columns b x y col count)) := by
  induction count generalizing m col with
  | zero =>
    rw [m.drawn_nowhere fun px py _ => columns_eq_false (by omega)]
    rfl
  | succ count ih =>
    rw [List.range'_succ, drawColumns]
    split
    · next hx =>
      -- the bit and the columns to the right of it have no pixel in common
      have hdisjoint : ∀ px py, maskedBy (b.getLsbD (7 - col)) (pixel (x + col) y) px py = true →
          columns b x y (col + 1) count px py = false := by
        intro px py hp
        have hpx : px = x + col ∧ py = y := by
          simpa [pixel] using (Bool.and_eq_true_iff.1 hp).2
        exact columns_eq_false (by omega)
      rw [bind_apply, drawBit_apply m ⟨hx, hy⟩, proceed_ok, ih]
      exact congrArg _ ((m.drawn_drawn hdisjoint).trans
        (m.drawn_congr fun px py _ => (columns_succ b x y col count px py).symm))
    · next hx =>
      rw [m.drawn_nowhere fun px py hpxy => columns_eq_false (by omega)]
      rfl

theorem sprite_eq_false {memory : Memory} {a rows x y px py : Nat}
    (h : ¬ (x ≤ px ∧ px < x + 8 ∧ y ≤ py ∧ py < y + rows)) :
    memory.sprite a rows x y px py = false := by
  rw [Memory.sprite, decide_eq_false h, Bool.false_and]

theorem sprite_succ (memory : Memory) (a rows x y px py : Nat) :
    memory.sprite a (rows + 1) x y px py =
      (columns (memory.cell a) x y 0 8 px py || memory.sprite (a + 1) rows x (y + 1) px py) := by
  by_cases hp : py = y
  · subst hp
    have hiff : (x ≤ px ∧ px < x + 8 ∧ py ≤ py ∧ py < py + (rows + 1)) ↔
        py = py ∧ x + 0 ≤ px ∧ px < x + 0 + 8 := by omega
    rw [sprite_eq_false (a := a + 1) (by omega), Bool.or_false, Memory.sprite, columns,
      Nat.sub_self]
    simp only [hiff, Nat.add_zero]
  · rw [columns_eq_false (by omega), Bool.false_or]
    by_cases hin : x ≤ px ∧ px < x + 8 ∧ y ≤ py ∧ py < y + (rows + 1)
    · have hcell : a + (py - y) = a + 1 + (py - (y + 1)) := by omega
      rw [Memory.sprite, Memory.sprite, hcell, decide_eq_true hin, decide_eq_true (by omega)]
    · rw [sprite_eq_false hin, sprite_eq_false (by omega)]

theorem drawn_sprite_succ (memory : Memory) (a rows x y : Nat) :
    (m.drawn (columns (memory.cell a) x y 0 8)).drawn (memory.sprite (a + 1) rows x (y + 1)) =
      m.drawn (memory.sprite a (rows + 1) x y) := by
  have hdisjoint : ∀ px py, columns (memory.cell a) x y 0 8 px py = true →
      memory.sprite (a + 1) rows x (y + 1) px py = false := by
    intro px py hp
    have hrow : py = y := (of_decide_eq_true (Bool.and_eq_true_iff.1 hp).1).1
    exact sprite_eq_false (by omega)
  exact (m.drawn_drawn hdisjoint).trans
    (m.drawn_congr fun px py _ => (sprite_succ memory a rows x y px py).symm)

theorem drawn_sprite_zero (memory : Memory) (a x y : Nat) :
    m.drawn (memory.sprite a 0 x y) = m :=
  m.drawn_nowhere fun _ _ _ => sprite_eq_false (by omega)

theorem drawRows_apply {x y a visible : Nat} (row count : Nat) (ha : a = m.index.toNat + row)
    (hle : a ≤ 4096) (hv : visible = min count (32 - (y + row))) :
    drawRows x y (List.range' row count) m =
      ended (if 4096 < a + visible then some (.memoryAccess 4096) else none)
        (m.drawn (m.memory.sprite a (min visible (4096 - a)) x (y + row))) := by
  induction count generalizing m row a visible with
  | zero =>
    rw [if_neg (by omega), show min visible (4096 - a) = 0 by omega, drawn_sprite_zero]
    rfl
  | succ count ih =>
    rw [List.range'_succ, drawRows]
    split
    · next hy =>
      rw [bind_apply, get_apply, proceed_ok, bind_apply, ← ha]
      -- a row is read as long as its address is one; the first that is not ends the drawing
      obtain hlt | heq := Nat.lt_or_eq_of_le hle
      · obtain ⟨rest, rfl⟩ : ∃ rest, visible = rest + 1 := ⟨visible - 1, by omega⟩
        have hrows : min (rest + 1) (4096 - a) = min rest (4096 - (a + 1)) + 1 := by omega
        have ha' : a + 1 = (m.drawn (columns (m.memory.cell a) x (y + row) 0 8)).index.toNat +
            (row + 1) := by
          rw [Machine.drawn_index]
          omega
        have hrest : rest = min count (32 - (y + (row + 1))) := by omega
        rw [readCell_of_lt m hlt, proceed_ok, bind_apply, List.range_eq_range',
          drawColumns_apply m _ hy, proceed_ok, ih _ (row + 1) ha' hlt hrest, hrows,
          ← drawn_sprite_succ, Machine.drawn_memory, Nat.add_right_comm a 1 rest]
        simp only [Nat.add_assoc]
      · have hpast : 4096 < a + visible := by omega
        rw [readCell_of_le m (Nat.le_of_eq heq.symm), proceed_error, if_pos hpast,
          show min visible (4096 - a) = 0 by omega, drawn_sprite_zero, heq]
        rfl
    · next hy =>
      rw [if_neg (by omega), show min visible (4096 - a) = 0 by omega, drawn_sprite_zero]
      rfl

theorem draw_apply (op : Opcode) :
    draw op.x.toNat op.y.toNat op.n.toNat m =
      ended (m.beyond? (m.visibleRows op)) (m.drawEffect op) := by
  have hi : m.index.toNat < 4096 := m.index.isLt
  have hflag : writeV Registers.flag.toNat 0 m = .ok () (m.setV Registers.flag 0) :=
    writeV_apply m Registers.flag 0 rfl
  have hrows : drawRows (m.originX op) (m.originY op) (List.range op.n.toNat)
      (m.setV Registers.flag 0) = ended (m.beyond? (m.visibleRows op))
        ((m.setV Registers.flag 0).drawn (m.memory.sprite m.index.toNat
          (min (m.visibleRows op) (4096 - m.index.toNat)) (m.originX op) (m.originY op))) := by
    rw [List.range_eq_range']
    exact drawRows_apply (m.setV Registers.flag 0) 0 op.n.toNat rfl (Nat.le_of_lt hi) rfl
  rw [Machine.drawEffect]
  rw [Machine.originX, Machine.originY] at hrows ⊢
  rw [draw, bind_apply, readV_apply, proceed_ok, bind_apply, readV_apply, proceed_ok, bind_apply,
    hflag, proceed_ok, bind_apply, hrows]
  have hdirty : (m.setV Registers.flag 0).dirty = m.dirty := rfl
  cases m.beyond? (m.visibleRows op) with
  | none =>
    simp only [ended, proceed_ok, modify_apply, Option.isNone_none, Bool.or_true]
  | some f =>
    simp only [ended, proceed_error, Option.isNone_some, Bool.or_false, ← hdirty]
    rw [← Machine.drawn_dirty]

end MachineM

end ChipEight
