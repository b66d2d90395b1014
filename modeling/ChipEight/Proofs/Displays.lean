import ChipEight.Proofs.Painting
import ChipEight.Settings

/-! What the window of a display shows, and what the display prints, after any number of pictures. -/

namespace ChipEight

open Text

def Text.characterAt (text : String) (column line : Nat) : Option Char :=
  (List.splitOn '\n' text.toList)[line]?.bind fun characters => characters[column]?

namespace Grid

variable {α : Type} {w h : Nat}

theorem at?_natCast (g : Grid α w h) (x y : Nat) : g.at? x y = g.get? x y := by
  rw [at?, if_pos ⟨Int.natCast_nonneg x, Int.natCast_nonneg y⟩, Int.toNat_natCast,
    Int.toNat_natCast]

end Grid

namespace Screen

variable {w h : Int}

theorem splitOn_text (s : Screen w h) (hh : 0 < h) :
    List.splitOn '\n' s.text.toList =
      s.rows.map (List.map fun on => if on then '*' else ' ') := by
  have htext : s.text.toList =
      ['\n'].intercalate (s.rows.map (List.map fun on => if on then '*' else ' ')) := by
    rw [text, String.toList_intercalate, List.map_map]
    simp only [Function.comp_def, String.toList_ofList]
    rfl
  rw [htext]
  refine List.splitOn_intercalate '\n' ?_ ?_
  · intro line hline hin
    obtain ⟨row, -, rfl⟩ := List.mem_map.1 hline
    obtain ⟨on, -, hon⟩ := List.mem_map.1 hin
    cases on <;> cases hon
  · rw [Ne, List.map_eq_nil_iff, Grid.rows, List.map_eq_nil_iff, List.range_eq_nil]
    omega

theorem characterAt_echo (s : Screen w h) {x y : Nat} (hxy : x < w.toNat ∧ y < h.toNat) :
    characterAt s.echo x y = some (if s.isOn x y then '*' else ' ') := by
  have hecho : s.echo.toList = s.text.toList ++ '\n' :: ['\n'] := by
    rw [echo, String.toList_append]
    rfl
  have hrow := s.getElem?_rows.2 ⟨hxy.2, rfl⟩
  have hline : y < (s.rows.map (List.map fun on => if on then '*' else ' ')).length := by
    rw [List.length_map]
    exact (List.getElem?_eq_some_iff.1 hrow).1
  rw [characterAt, hecho, List.splitOn_append_cons_self, s.splitOn_text (by omega),
    List.getElem?_append_left hline, List.getElem?_map, hrow, Option.map_some, Option.bind_some,
    List.getElem?_map, s.getElem?_row hxy.2, s.get?_eq_isOn hxy, Option.map_some]

end Screen

def Picture.IsOn (p : Picture) (x y : Int) : Prop :=
  x < p.width ∧ y < p.height ∧ p.screen.read x y = .ok true

theorem Picture.isOn_natCast (p : Picture) (x y : Nat) :
    p.IsOn x y ↔ p.screen.get? x y = some true := by
  rw [IsOn, Screen.read, Grid.at?_natCast]
  constructor
  · rintro ⟨-, -, hread⟩
    cases hon : p.screen.get? x y with
    | none => rw [hon] at hread; cases hread
    | some on =>
      rw [hon] at hread
      cases hread
      rfl
  · intro hon
    have hxy := Grid.lt_of_get? hon
    refine ⟨by omega, by omega, ?_⟩
    rw [hon]

theorem Picture.isOn_cell (p : Picture) {side : Int} (hside : 1 ≤ side) (x y : Nat) :
    p.IsOn (x / side) (y / side) ↔ ∃ column line : Nat, p.screen.get? column line = some true ∧
      Grid.rectangle (column * side) (line * side) side side x y := by
  have hnonneg : ∀ n : Nat, 0 ≤ n / side := fun n =>
    Int.ediv_nonneg (Int.natCast_nonneg n) (by omega)
  obtain ⟨i, hi⟩ := Int.eq_ofNat_of_zero_le (hnonneg x)
  obtain ⟨j, hj⟩ := Int.eq_ofNat_of_zero_le (hnonneg y)
  simp only [Grid.rectangle_cell hside]
  rw [hi, hj, isOn_natCast]
  constructor
  · exact fun hon => ⟨i, j, hon, rfl, rfl⟩
  · rintro ⟨column, line, hon, hcolumn, hline⟩
    rwa [Int.ofNat_inj.1 hcolumn, Int.ofNat_inj.1 hline]

def Asked (columns rows scale x y : Int) : Prop :=
  (0 ≤ x ∧ x < columns * scale) ∧ 0 ≤ y ∧ y < rows * scale

theorem Asked.exists_lt {columns rows scale x y : Int} {w h : Nat}
    (hxy : Asked columns rows scale x y) (hw : columns * scale ≤ w) (hh : rows * scale ≤ h) :
    ∃ i j : Nat, x = i ∧ y = j ∧ i < w ∧ j < h := by
  obtain ⟨⟨hx, hright⟩, hy, hbottom⟩ := hxy
  obtain ⟨i, rfl⟩ := Int.eq_ofNat_of_zero_le hx
  obtain ⟨j, rfl⟩ := Int.eq_ofNat_of_zero_le hy
  exact ⟨i, j, rfl, rfl, by omega, by omega⟩

/-- What is given is no smaller than what is asked for. -/
def Grants (size : (width height : Int) → Except WindowError (Nat × Nat)) (width height : Int) :
    Prop :=
  ∃ given : Nat × Nat, size width height = .ok given ∧ width ≤ given.1 ∧ height ≤ given.2

namespace Surface

section Shows

variable (s : Surface) (columns rows scale : Int) (background foreground : Colour)

def ShowsNothing : Prop :=
  ∀ x y, Asked columns rows scale x y → s.pixels.at? x y = some background

/-- The cells of the pixels that are on have one colour, and all else that was asked for the other. -/
structure Shows (p : Picture) : Prop where
  foreground_iff : ∀ x y, Asked columns rows scale x y →
    (s.pixels.at? x y = some foreground ↔ p.IsOn (x / scale) (y / scale))
  background_of_off : ∀ x y, Asked columns rows scale x y → ¬ p.IsOn (x / scale) (y / scale) →
    s.pixels.at? x y = some background

def PrintedAs (p : Picture) (text : String) : Prop :=
  ∀ x y, Asked columns rows scale x y → x / scale < p.width → y / scale < p.height →
    ∃ c, characterAt text (x / scale).toNat (y / scale).toNat = some c ∧
      (c = '*' ↔ s.pixels.at? x y = some foreground)

end Shows

theorem Shows.printedAs {s : Surface} {columns rows scale : Int} {background foreground : Colour}
    {p : Picture} (hscale : 1 ≤ scale)
    (hshows : s.Shows columns rows scale background foreground p) :
    s.PrintedAs columns rows scale foreground p p.screen.echo := by
  intro x y hxy hx hy
  have hnonneg : 0 ≤ scale := by omega
  obtain ⟨column, hcolumn⟩ := Int.eq_ofNat_of_zero_le (Int.ediv_nonneg hxy.1.1 hnonneg)
  obtain ⟨line, hline⟩ := Int.eq_ofNat_of_zero_le (Int.ediv_nonneg hxy.2.1 hnonneg)
  have hin : column < p.width.toNat ∧ line < p.height.toNat := by omega
  have hforeground := hshows.foreground_iff x y hxy
  rw [hcolumn, hline, p.isOn_natCast, p.screen.get?_eq_isOn hin, Option.some.injEq] at hforeground
  rw [hcolumn, hline, Int.toNat_natCast, Int.toNat_natCast]
  refine ⟨_, p.screen.characterAt_echo hin, ?_⟩
  rw [hforeground]
  cases p.screen.isOn column line <;> decide

variable {painter : Painter}

theorem openedBy_showsNothing {size : (width height : Int) → Except WindowError (Nat × Nat)}
    {columns rows scale : Int} (background foreground : Colour)
    (hsize : Grants size (columns * scale) (rows * scale)) (hfills : painter.Fills) :
    ∃ (width height : Nat) (pixels : Grid Colour width height),
      openedBy painter size columns rows scale background foreground =
        .ok ⟨width, height, scale, background, foreground, pixels⟩ ∧
      columns * scale ≤ width ∧ rows * scale ≤ height ∧
      (⟨width, height, scale, background, foreground, pixels⟩ : Surface).ShowsNothing columns rows
        scale background := by
  obtain ⟨⟨width, height⟩, hgiven, hcolumns, hrows⟩ := hsize
  refine ⟨width, height, painter.fill painter.unpainted background, ?_, hcolumns, hrows, ?_⟩
  · rw [openedBy, hgiven]
    rfl
  · intro x y hasked
    obtain ⟨i, j, rfl, rfl, hij⟩ := hasked.exists_lt hcolumns hrows
    rw [Grid.at?_natCast]
    exact hfills _ _ i j hij

theorem renderBy_recolours (s : Surface) {p : Picture}
    (hcells : painter.PaintsCells s.scale p.width p.height) :
    ∃ pixels, s.renderBy painter p.screen = .ok { s with pixels := pixels } ∧
      (painter.fill s.pixels s.background).Recoloured
        (fun x y => ∃ column line : Nat, p.screen.get? column line = some true ∧
          Grid.rectangle (column * s.scale) (line * s.scale) s.scale s.scale x y)
        s.foreground pixels := by
  obtain ⟨pixels, hpixels, hrecoloured⟩ :=
    Painter.paintRows_recolours s.foreground p.screen hcells (painter.fill s.pixels s.background)
  change painter.paintRows _ _ _ _ = _ at hpixels
  refine ⟨pixels, ?_, hrecoloured⟩
  rw [renderBy, hpixels]
  rfl

theorem renderBy_shows (hfills : painter.Fills) (s : Surface) {columns rows : Int}
    (hscale : 1 ≤ s.scale) (hdistinct : s.background ≠ s.foreground)
    (hcolumns : columns * s.scale ≤ s.width) (hrows : rows * s.scale ≤ s.height) {p : Picture}
    (hcells : painter.PaintsCells s.scale p.width p.height) :
    ∃ pixels, s.renderBy painter p.screen = .ok { s with pixels := pixels } ∧
      ({ s with pixels := pixels } : Surface).Shows columns rows s.scale s.background s.foreground
        p := by
  obtain ⟨pixels, hrendered, hrecoloured⟩ := s.renderBy_recolours hcells
  -- Every pixel that was asked for has been filled, and painted over if its cell is on.
  have hpixel : ∀ x y, Asked columns rows s.scale x y →
      (p.IsOn (x / s.scale) (y / s.scale) → pixels.at? x y = some s.foreground) ∧
      (¬ p.IsOn (x / s.scale) (y / s.scale) → pixels.at? x y = some s.background) := by
    intro x y hasked
    obtain ⟨i, j, rfl, rfl, hij⟩ := hasked.exists_lt hcolumns hrows
    obtain ⟨hlit, hunlit⟩ := hrecoloured i j hij
    rw [pixels.at?_natCast, p.isOn_cell hscale]
    rw [hfills _ _ i j hij] at hunlit
    exact ⟨hlit, hunlit⟩
  refine ⟨pixels, hrendered, fun x y hxy => ⟨fun hcolour => ?_, (hpixel x y hxy).1⟩,
    fun x y hxy => (hpixel x y hxy).2⟩
  refine Classical.byContradiction fun hoff => hdistinct ?_
  exact Option.some.inj (((hpixel x y hxy).2 hoff).symm.trans hcolour)

end Surface

namespace Display

variable {painter : Painter}

theorem render_of_ok {s s' : Surface} {p : Picture} (echoes : Bool)
    (hs : s.renderBy painter p.screen = .ok s') :
    render painter ⟨s, echoes⟩ p = .ok (⟨s', echoes⟩, if echoes then p.screen.echo else "") := by
  rw [render, hs]
  rfl

theorem renderAll_ok (s : Surface) (echoes : Bool) {pictures : List Picture}
    (hcells : ∀ p ∈ pictures, painter.PaintsCells s.scale p.width p.height) :
    ∃ pixels texts, renderAll painter ⟨s, echoes⟩ pictures =
      .ok (⟨{ s with pixels := pixels }, echoes⟩, texts) := by
  induction pictures generalizing s with
  | nil => exact ⟨s.pixels, [], rfl⟩
  | cons p pictures ih =>
    rw [List.forall_mem_cons] at hcells
    obtain ⟨painted, hpainted, -⟩ := s.renderBy_recolours hcells.1
    obtain ⟨pixels, texts, hrest⟩ := ih { s with pixels := painted } hcells.2
    refine ⟨pixels, (if echoes then p.screen.echo else "") :: texts, ?_⟩
    rw [renderAll, render_of_ok echoes hpainted, ok_bind]
    dsimp only
    rw [hrest]
    rfl

end Display

theorem grants_windowSize (desktop : Nat × Nat) {width height : Int}
    (hwidth : 0 < width ∧ width ≤ longestSide) (hheight : 0 < height ∧ height ≤ longestSide) :
    Grants (windowSize desktop) width height := by
  unfold longestSide at hwidth hheight
  refine ⟨(max width.toNat 1, max height.toNat 1), ?_, ?_, ?_⟩
  · rw [windowSize, pixelCount_of_counts (by unfold Counts; omega), ok_bind,
      pixelCount_of_counts (by unfold Counts; omega), ok_bind, if_neg (by omega),
      if_neg (by omega), if_neg (by unfold longestSide; omega)]
  · dsimp only
    omega
  · dsimp only
    omega

/-- A window shows nothing when it has been opened, and after each picture exactly that picture, whatever has been
shown before; and what is printed of a picture is what is then seen of it. -/
theorem window_shows_last_picture {painter : Painter}
    {size : (width height : Int) → Except WindowError (Nat × Nat)} {columns rows scale : Int}
    {background foreground : Colour} (hscale : 1 ≤ scale) (hdistinct : background ≠ foreground)
    (hsize : Grants size (columns * scale) (rows * scale)) (hfills : painter.Fills)
    (echoes : Bool) :
    ∃ s, Surface.openedBy painter size columns rows scale background foreground = .ok s ∧
      s.ShowsNothing columns rows scale background ∧
      ∀ earlier p, (∀ q ∈ p :: earlier, painter.PaintsCells scale q.width q.height) →
        ∃ d texts d' text, Display.renderAll painter ⟨s, echoes⟩ earlier = .ok (d, texts) ∧
          d.render painter p = .ok (d', text) ∧
          d'.surface.Shows columns rows scale background foreground p ∧
          (echoes = true → d'.surface.PrintedAs columns rows scale foreground p text) := by
  obtain ⟨width, height, pixels, hopened, hcolumns, hrows, hnothing⟩ :=
    Surface.openedBy_showsNothing background foreground hsize hfills
  refine ⟨_, hopened, hnothing, fun earlier p hcells => ?_⟩
  rw [List.forall_mem_cons] at hcells
  obtain ⟨before, texts, hearlier⟩ := Display.renderAll_ok
    ⟨width, height, scale, background, foreground, pixels⟩ echoes hcells.2
  obtain ⟨painted, hrendered, hshows⟩ := Surface.renderBy_shows hfills
    ⟨width, height, scale, background, foreground, before⟩ hscale hdistinct hcolumns hrows hcells.1
  refine ⟨_, texts, _, _, hearlier, Display.render_of_ok echoes hrendered, hshows, ?_⟩
  rintro rfl
  exact hshows.printedAs hscale

def Picture.lit : Picture :=
  ⟨2, 1, Grid.fill true⟩

def Picture.dot : Picture :=
  ⟨3, 2, Screen.blank.put 0 0 true⟩

theorem dot_shown_after_lit :
    ∃ s d texts d' text,
      Surface.opened Settings.desktop 2 1 3 Settings.background Settings.foreground = .ok s ∧
      s.pixels.at? 5 2 = some Settings.background ∧
      Display.renderAll .standard ⟨s, true⟩ [Picture.lit] = .ok (d, texts) ∧
      d.render .standard Picture.dot = .ok (d', text) ∧
      d'.surface.pixels.at? 2 2 = some Settings.foreground ∧
      d'.surface.pixels.at? 5 2 = some Settings.background ∧
      Text.characterAt text 0 0 = some '*' := by
  have hscale : (1 : Int) ≤ 3 := by decide
  have hdistinct : Settings.background ≠ Settings.foreground := by decide
  have hsize : Grants (windowSize Settings.desktop) (2 * 3) (1 * 3) :=
    grants_windowSize _ (by decide) (by decide)
  have hcells : ∀ q ∈ [Picture.dot, Picture.lit],
      Painter.standard.PaintsCells 3 q.width q.height :=
    List.forall_mem_cons.2 ⟨Painter.standard_paintsCells hscale (by decide) (by decide),
      List.forall_mem_cons.2 ⟨Painter.standard_paintsCells hscale (by decide) (by decide),
        List.forall_mem_nil _⟩⟩
  obtain ⟨s, hopened, hnothing, hall⟩ :=
    window_shows_last_picture hscale hdistinct hsize Painter.standard_fills true
  obtain ⟨d, texts, d', text, hearlier, hlast, hshows, hprinted⟩ := hall _ _ hcells
  have hcorner : Asked 2 1 3 5 2 := by
    unfold Asked
    omega
  have hdot : Asked 2 1 3 2 2 := by
    unfold Asked
    omega
  have hforeground : d'.surface.pixels.at? 2 2 = some Settings.foreground :=
    (hshows.foreground_iff 2 2 hdot).2 ⟨by decide, by decide, rfl⟩
  have hbackground : d'.surface.pixels.at? 5 2 = some Settings.background := by
    refine hshows.background_of_off 5 2 hcorner fun hon => ?_
    cases hon.2.2
  obtain ⟨c, hc, hstar⟩ := hprinted rfl 2 2 hdot (by decide) (by decide)
  exact ⟨s, d, texts, d', text, hopened, hnothing 5 2 hcorner, hearlier, hlast, hforeground,
    hbackground, hc.trans (congrArg some (hstar.2 hforeground))⟩

end ChipEight
