import ChipEight.Proofs.Pixels
import ChipEight.Window.Surface

/-! What is painted into a window: which pixels take a colour, while all others are left as they are. -/

namespace ChipEight

namespace Grid

variable {α ε : Type} {w h : Nat}

def Recoloured (area : Nat → Nat → Prop) (colour : α) (g g' : Grid α w h) : Prop :=
  ∀ x y, x < w ∧ y < h →
    (area x y → g'.get? x y = some colour) ∧ (¬ area x y → g'.get? x y = g.get? x y)

/-- Whatever the grid, an area takes a colour, and nothing goes wrong. -/
def Recolours (area : Nat → Nat → Prop) (colour : α)
    (f : Grid α w h → Except ε (Grid α w h)) : Prop :=
  ∀ g, ∃ g', f g = .ok g' ∧ g.Recoloured area colour g'

namespace Recolours

variable {area area' : Nat → Nat → Prop} {colour : α}
  {f f' : Grid α w h → Except ε (Grid α w h)}

theorem nothing : Recolours (fun _ _ => False) colour
    (Except.ok : Grid α w h → Except ε (Grid α w h)) :=
  fun g => ⟨g, rfl, fun _ _ _ => ⟨False.elim, fun _ => rfl⟩⟩

theorem congr (hf : Recolours area colour f)
    (harea : ∀ x y, x < w ∧ y < h → (area x y ↔ area' x y)) : Recolours area' colour f := by
  intro g
  obtain ⟨g', hg', hrecoloured⟩ := hf g
  refine ⟨g', hg', fun x y hxy => ?_⟩
  rw [← harea x y hxy]
  exact hrecoloured x y hxy

theorem andThen (hf : Recolours area colour f) (hf' : Recolours area' colour f') :
    Recolours (fun x y => area x y ∨ area' x y) colour fun g => f g >>= f' := by
  intro g
  obtain ⟨g₁, hg₁, hfirst⟩ := hf g
  obtain ⟨g₂, hg₂, hsecond⟩ := hf' g₁
  have hboth : f g >>= f' = .ok g₂ := by rw [hg₁, ok_bind, hg₂]
  refine ⟨g₂, hboth, fun x y hxy => ⟨fun hin => ?_, fun hout => ?_⟩⟩
  · by_cases hlater : area' x y
    · exact (hsecond x y hxy).1 hlater
    · rw [(hsecond x y hxy).2 hlater]
      exact (hfirst x y hxy).1 (hin.resolve_right hlater)
  · rw [(hsecond x y hxy).2 fun hlater => hout (.inr hlater)]
    exact (hfirst x y hxy).2 fun hearlier => hout (.inl hearlier)

theorem ite {p : Prop} [Decidable p] (hf : p → Recolours area colour f) :
    Recolours (fun x y => p ∧ area x y) colour fun g => if p then f g else .ok g := by
  by_cases hp : p
  · simp only [if_pos hp]
    exact (hf hp).congr fun _ _ _ => (and_iff_right hp).symm
  · simp only [if_neg hp]
    exact nothing.congr fun _ _ _ => (iff_of_false id fun hin => hp hin.1)

theorem foldlM {β : Type} {l : List β} {areas : β → Nat → Nat → Prop}
    {f : Grid α w h → β → Except ε (Grid α w h)}
    (hf : ∀ b ∈ l, Recolours (areas b) colour (f · b)) :
    Recolours (fun x y => ∃ b ∈ l, areas b x y) colour fun g => l.foldlM f g := by
  induction l with
  | nil => exact nothing.congr fun _ _ _ => by simp
  | cons b l ih =>
    rw [List.forall_mem_cons] at hf
    refine congr (f := fun g => f g b >>= fun g => l.foldlM f g) (hf.1.andThen (ih hf.2)) ?_
    intro x y _
    simp only [List.mem_cons, exists_eq_or_imp]

theorem foldl {β : Type} {l : List β} {areas : β → Nat → Nat → Prop}
    {f : Grid α w h → β → Grid α w h}
    (hf : ∀ b ∈ l, Recolours (areas b) colour fun g => (.ok (f g b) : Except ε (Grid α w h))) :
    Recolours (fun x y => ∃ b ∈ l, areas b x y) colour
      fun g => (.ok (l.foldl f g) : Except ε (Grid α w h)) := by
  have hpure : (fun g => .ok (l.foldl f g) : Grid α w h → Except ε (Grid α w h)) =
      fun g => l.foldlM (fun g b => .ok (f g b)) g :=
    funext fun _ => (List.foldlM_pure (m := Except ε)).symm
  rw [hpure]
  exact foldlM hf

end Recolours

section Rectangles

variable (colour : α)

theorem put_recolours (x y : Nat) : Recolours (fun px py => px = x ∧ py = y) colour
    fun g : Grid α w h => (.ok (g.put x y colour) : Except ε (Grid α w h)) := by
  refine fun g => ⟨_, rfl, fun px py hxy => ?_⟩
  rw [get?_put g x y colour hxy]
  exact ⟨fun hp => if_pos hp, fun hp => if_neg hp⟩

theorem mem_stretch {start length : Int} {limit i : Nat} :
    i ∈ stretch start length limit ↔ start ≤ i ∧ i < start + length ∧ i < limit := by
  rw [stretch, List.mem_range'_1]
  omega

def rectangle (left top width height : Int) (x y : Nat) : Prop :=
  (left ≤ x ∧ x < left + width) ∧ top ≤ y ∧ y < top + height

theorem paint_recolours (left top width height : Int) :
    Recolours (rectangle left top width height) colour fun g : Grid α w h =>
      (.ok (g.paint left top width height colour) : Except ε (Grid α w h)) := by
  have hlines : Recolours
      (fun px py => ∃ y ∈ stretch top height h, ∃ x ∈ stretch left width w, px = x ∧ py = y)
      colour fun g : Grid α w h =>
        (.ok (g.paint left top width height colour) : Except ε (Grid α w h)) :=
    Recolours.foldl fun y _ => Recolours.foldl fun x _ => put_recolours colour x y
  refine hlines.congr fun px py hxy => ?_
  constructor
  · rintro ⟨_, hy, _, hx, rfl, rfl⟩
    rw [mem_stretch] at hx hy
    exact ⟨⟨hx.1, hx.2.1⟩, hy.1, hy.2.1⟩
  · rintro ⟨⟨hleft, hright⟩, htop, hbottom⟩
    exact ⟨py, mem_stretch.2 ⟨htop, hbottom, hxy.2⟩, px, mem_stretch.2 ⟨hleft, hright, hxy.1⟩,
      rfl, rfl⟩

theorem rectangle_cell {side : Int} (hside : 1 ≤ side) {x y px py : Nat} :
    rectangle (x * side) (y * side) side side px py ↔ px / side = x ∧ py / side = y := by
  have hpos : 0 < side := hside
  have hdiv : ∀ n k : Nat, (k * side ≤ n ∧ n < k * side + side) ↔ n / side = k := by
    intro n k
    have hnext : k * side + side = (k + 1) * side := by rw [Int.add_mul, Int.one_mul]
    rw [hnext, ← Int.le_ediv_iff_mul_le hpos, ← Int.ediv_lt_iff_lt_mul hpos]
    omega
  rw [rectangle, hdiv, hdiv]

end Rectangles

theorem getElem?_row (g : Grid α w h) {x y : Nat} (hy : y < h) :
    (g.row y)[x]? = g.get? x y := by
  have hend : (y + 1) * w ≤ w * h := by
    rw [Nat.mul_comm w h]
    exact Nat.mul_le_mul_right w hy
  have hlength : min ((y + 1) * w) g.cells.toArray.size - y * w = w := by
    rw [Vector.size_toArray, Nat.min_eq_left hend, Nat.add_mul, Nat.one_mul, Nat.add_sub_cancel_left]
  rw [row, Array.getElem?_toList, Array.getElem?_extract, hlength]
  by_cases hx : x < w
  · rw [if_pos hx, get?_eq_getElem? g ⟨hx, hy⟩, Nat.add_comm, Vector.getElem?_toArray]
  · rw [if_neg hx, get?, dif_neg fun hxy => hx hxy.1]

theorem getElem?_rows (g : Grid α w h) {y : Nat} {r : List α} :
    g.rows[y]? = some r ↔ y < h ∧ g.row y = r := by
  rw [rows, List.getElem?_map]
  by_cases hy : y < h
  · rw [List.getElem?_range hy, Option.map_some, Option.some.injEq, and_iff_right hy]
  · rw [List.getElem?_eq_none (by rwa [List.length_range, Nat.not_lt] at *), Option.map_none]
    exact iff_of_false (fun hnone => by cases hnone) fun hr => hy hr.1

theorem lt_of_get? {g : Grid α w h} {x y : Nat} {a : α} (hg : g.get? x y = some a) :
    x < w ∧ y < h := by
  rw [get?] at hg
  split at hg
  · assumption
  · cases hg

end Grid

def Counts (n : Int) : Prop :=
  -2147483648 ≤ n ∧ n < 2147483648

theorem pixelCount_of_counts {e : WindowError} {n : Int} (hn : Counts n) :
    pixelCount e n = .ok n := by
  unfold Counts at hn
  have hlong : isLong n = true := by
    rw [isLong, decide_eq_true_iff]
    exact Int.bmod_eq_of_le (by omega) (by omega)
  rw [pixelCount, if_pos hlong, Int.bmod_eq_of_le (by omega) (by omega)]

namespace Painter

def PaintsRectangle (painter : Painter) (left top width height : Int) : Prop :=
  ∀ (w h : Nat) (colour : Colour), Grid.Recolours (Grid.rectangle left top width height) colour
    fun g : Grid Colour w h => painter.rectangle g left top width height colour

def PaintsCells (painter : Painter) (side w h : Int) : Prop :=
  ∀ x y : Nat, x < w → y < h → painter.PaintsRectangle (x * side) (y * side) side side

def Fills (painter : Painter) : Prop :=
  ∀ {w h : Nat} (g : Grid Colour w h) (colour : Colour) (x y : Nat), x < w ∧ y < h →
    (painter.fill g colour).get? x y = some colour

section Rows

variable {painter : Painter} {side : Int} {w h : Nat} (colour : Colour)

theorem paintRow_recolours {row : List Bool} {y : Nat}
    (hcells : ∀ x : Nat, row[x]? = some true →
      painter.PaintsRectangle (x * side) (y * side) side side) :
    Grid.Recolours
      (fun px py => ∃ x : Nat, row[x]? = some true ∧
        Grid.rectangle (x * side) (y * side) side side px py) colour
      fun g : Grid Colour w h => painter.paintRow g side colour row y := by
  have hlit : Grid.Recolours
      (fun px py => ∃ b ∈ row.zipIdx, b.1 = true ∧
        Grid.rectangle (b.2 * side) (y * side) side side px py) colour
      fun g : Grid Colour w h => painter.paintRow g side colour row y :=
    Grid.Recolours.foldlM fun b hb => Grid.Recolours.ite fun hon =>
      hcells b.2 (hon ▸ List.mem_zipIdx_iff_getElem?.1 hb) w h colour
  refine hlit.congr fun px py _ => ?_
  constructor
  · rintro ⟨⟨on, x⟩, hb, rfl, hin⟩
    exact ⟨x, List.mem_zipIdx_iff_getElem?.1 hb, hin⟩
  · rintro ⟨x, hx, hin⟩
    exact ⟨(true, x), List.mem_zipIdx_iff_getElem?.2 hx, rfl, hin⟩

theorem paintRows_recolours {columns lines : Int} (screen : Screen columns lines)
    (hcells : painter.PaintsCells side columns lines) :
    Grid.Recolours
      (fun px py => ∃ x y : Nat, screen.get? x y = some true ∧
        Grid.rectangle (x * side) (y * side) side side px py) colour
      fun g : Grid Colour w h => painter.paintRows g side colour screen.rows := by
  have hlit : Grid.Recolours
      (fun px py => ∃ b ∈ screen.rows.zipIdx, ∃ x : Nat, b.1[x]? = some true ∧
        Grid.rectangle (x * side) (b.2 * side) side side px py) colour
      fun g : Grid Colour w h => painter.paintRows g side colour screen.rows := by
    refine Grid.Recolours.foldlM fun b hb => paintRow_recolours colour fun x hx => ?_
    obtain ⟨hy, hrow⟩ := screen.getElem?_rows.1 (List.mem_zipIdx_iff_getElem?.1 hb)
    rw [← hrow, screen.getElem?_row hy] at hx
    have hxy := Grid.lt_of_get? hx
    exact hcells x b.2 (by omega) (by omega)
  refine hlit.congr fun px py _ => ?_
  constructor
  · rintro ⟨⟨row, y⟩, hb, x, hx, hin⟩
    have hrow := screen.getElem?_rows.1 (List.mem_zipIdx_iff_getElem?.1 hb)
    refine ⟨x, y, ?_, hin⟩
    rw [← screen.getElem?_row hrow.1, hrow.2]
    exact hx
  · rintro ⟨x, y, hon, hin⟩
    have hy := (Grid.lt_of_get? hon).2
    exact ⟨(screen.row y, y), List.mem_zipIdx_iff_getElem?.2 (screen.getElem?_rows.2 ⟨hy, rfl⟩), x,
      (screen.getElem?_row hy).trans hon, hin⟩

end Rows

section Standard

theorem standard_fills : standard.Fills := by
  intro w h g colour x y hxy
  show (Grid.fill colour : Grid Colour w h).get? x y = some colour
  rw [Grid.get?, dif_pos hxy, Grid.fill]
  exact congrArg some (Vector.getElem_replicate (Grid.index_lt hxy))

theorem standard_paintsRectangle {left top width height : Int} (hleft : Counts left)
    (htop : Counts top) (hwidth : Counts width) (hheight : Counts height) :
    standard.PaintsRectangle left top width height := by
  intro w h colour g
  have hpainted : standard.rectangle g left top width height colour =
      .ok (g.paint left top width height colour) := by
    simp only [standard, pixelCount_of_counts hleft, pixelCount_of_counts htop,
      pixelCount_of_counts hwidth, pixelCount_of_counts hheight, ok_bind]
    rfl
  obtain ⟨g', hg', hrecoloured⟩ :=
    Grid.paint_recolours (ε := WindowError) colour left top width height g
  exact ⟨g', hpainted.trans hg', hrecoloured⟩

theorem standard_paintsCells {side columns lines : Int} (hside : 1 ≤ side)
    (hcolumns : columns * side < 2147483648) (hlines : lines * side < 2147483648) :
    standard.PaintsCells side columns lines := by
  have hcell : ∀ {limit : Int} {k : Nat}, limit * side < 2147483648 → k < limit →
      Counts (k * side) ∧ Counts side := by
    intro limit k hlimit hk
    have hend : (k + 1) * side ≤ limit * side := Int.mul_le_mul_of_nonneg_right hk (by omega)
    have hstart : 0 ≤ k * side := Int.mul_nonneg (Int.natCast_nonneg k) (by omega)
    rw [Int.add_mul, Int.one_mul] at hend
    unfold Counts
    omega
  intro x y hx hy
  obtain ⟨hleft, hcounts⟩ := hcell hcolumns hx
  exact standard_paintsRectangle hleft (hcell hlines hy).1 hcounts hcounts

end Standard

end Painter

end ChipEight
