import Mathlib.Data.List.Induction
import ChipEight.Proofs.Displays
import ChipEight.Proofs.Histories
import ChipEight.Proofs.Sprites

/-! Screens of any size, degenerate ones included, under any calls: each pixel is as the last call that set it says,
inverted as often as it has been flipped since. -/

namespace ChipEight

open Actions

inductive ScreenCall
  | read (x y : Int)
  | write (x y : Int) (on : Bool)
  | flip (x y : Int)
  | clear
deriving DecidableEq

namespace ScreenCall

def action {w h : Int} : ScreenCall → EStateM Fault (Screen w h) (Option Bool)
  | read x y => do return some (← MonadExcept.ofExcept ((← get).read x y))
  | write x y on => do
    set (← MonadExcept.ofExcept ((← get).write x y on))
    return none
  | flip x y => do
    let (old, s) ← MonadExcept.ofExcept ((← get).flip x y)
    set s
    return some old
  | clear => do
    set (Screen.blank : Screen w h)
    return none

def point? : ScreenCall → Option (Int × Int)
  | read x y | write x y _ | flip x y => some (x, y)
  | clear => none

def sets? (x y : Int) : ScreenCall → Option Bool
  | write x' y' on => if x' = x ∧ y' = y then some on else none
  | clear => some false
  | _ => none

def flipsSince (x y : Int) (calls : List ScreenCall) : Nat :=
  (sinceSet (sets? x y) calls).count (.flip x y)

def pixelAfter (x y : Int) (before : Bool) (calls : List ScreenCall) : Bool :=
  (lastSet? (sets? x y) calls).getD before ^^ decide (flipsSince x y calls % 2 = 1)

end ScreenCall

namespace Grid

variable {w h : Nat}

theorem isOn_put (g : Grid Bool w h) (x y : Nat) (on : Bool) {x' y' : Nat}
    (hxy' : x' < w ∧ y' < h) :
    (g.put x y on).isOn x' y' = if x' = x ∧ y' = y then on else g.isOn x' y' := by
  rw [isOn, get?_put _ _ _ _ hxy']
  split <;> rfl

variable {α : Type}

theorem row_eq (g : Grid α w h) (y : Nat) : g.row y = (g.cells.toList.drop (y * w)).take w := by
  rw [row, Array.toList_extract, Nat.add_mul, Nat.one_mul, List.extract_eq_take_drop,
    Nat.add_sub_cancel_left]
  rfl

theorem length_row (g : Grid α w h) {y : Nat} (hy : y < h) : (g.row y).length = w := by
  have hend : (y + 1) * w ≤ w * h := by
    rw [Nat.mul_comm w h]
    exact Nat.mul_le_mul_right w hy
  rw [Nat.add_mul, Nat.one_mul] at hend
  rw [row_eq, List.length_take, List.length_drop, Vector.length_toList]
  omega

theorem flatten_rows (g : Grid α w h) : g.rows.flatten = g.cells.toList := by
  have hrows : ∀ k, ((List.range k).map g.row).flatten = g.cells.toList.take (k * w) := by
    intro k
    induction k with
    | zero => simp
    | succ k ih =>
      rw [List.range_succ, List.map_append, List.flatten_append, ih, Nat.add_mul, Nat.one_mul,
        List.take_add, ← row_eq]
      simp
  rw [rows, hrows, Nat.mul_comm h w]
  exact List.take_of_length_le (Nat.le_of_eq Vector.length_toList)

end Grid

namespace Screen

variable {w h : Int}

def Within (w h x y : Int) : Prop :=
  (0 ≤ x ∧ x < w) ∧ 0 ≤ y ∧ y < h

instance (w h x y : Int) : Decidable (Within w h x y) :=
  inferInstanceAs (Decidable ((0 ≤ x ∧ x < w) ∧ 0 ≤ y ∧ y < h))

variable (s : Screen w h) {x y x' y' : Int}

theorem Within.toNat_lt (hxy : Within w h x y) : x.toNat < w.toNat ∧ y.toNat < h.toNat := by
  unfold Within at hxy
  omega

theorem read_of_within (hxy : Within w h x y) : s.read x y = .ok (s.isOn x.toNat y.toNat) := by
  rw [read, Grid.at?, if_pos ⟨hxy.1.1, hxy.2.1⟩, s.get?_eq_isOn hxy.toNat_lt]

theorem read_of_outside (hxy : ¬ Within w h x y) :
    s.read x y = .error (.outOfRange (.pixel x y w h)) := by
  have hnone : s.at? x y = none := by
    unfold Grid.at? Grid.get?
    split
    · rw [dif_neg]
      unfold Within at hxy
      omega
    · rfl
  rw [read, hnone]

theorem isOn_put_toNat (hxy : Within w h x y) (hxy' : Within w h x' y') (on : Bool) :
    (s.put x.toNat y.toNat on).isOn x'.toNat y'.toNat =
      if x = x' ∧ y = y' then on else s.isOn x'.toNat y'.toNat := by
  have hsame : x'.toNat = x.toNat ∧ y'.toNat = y.toNat ↔ x = x' ∧ y = y' := by
    unfold Within at hxy hxy'
    omega
  rw [Grid.isOn_put _ _ _ _ hxy'.toNat_lt, if_congr hsame rfl rfl]

theorem read_put (hxy : Within w h x y) (on : Bool) (x' y' : Int) :
    Screen.read (s.put x.toNat y.toNat on) x' y' =
      if x = x' ∧ y = y' then .ok on else s.read x' y' := by
  by_cases hxy' : Within w h x' y'
  · rw [read_of_within _ hxy', s.isOn_put_toNat hxy hxy', s.read_of_within hxy']
    split <;> rfl
  · have hother : ¬ (x = x' ∧ y = y') := by
      rintro ⟨rfl, rfl⟩
      exact hxy' hxy
    rw [read_of_outside _ hxy', s.read_of_outside hxy', if_neg hother]

theorem ext_read {s t : Screen w h} (hread : ∀ x y, Within w h x y → s.read x y = t.read x y) :
    s = t := by
  apply Grid.ext_isOn
  intro i j hij
  have hwithin : Within w h i j := by
    unfold Within
    omega
  have heq := hread i j hwithin
  rw [s.read_of_within hwithin, t.read_of_within hwithin] at heq
  exact Except.ok.inj heq

theorem text_injective {s t : Screen w h} (hh : 0 < h) (htext : s.text = t.text) : s = t := by
  have hshape : ∀ on on' : Bool, (if on then '*' else ' ') = (if on' then '*' else ' ') → on = on' := by
    decide
  have hlines := congrArg (fun text : String => List.splitOn '\n' text.toList) htext
  simp only [s.splitOn_text hh, t.splitOn_text hh] at hlines
  have hrows : s.rows = t.rows :=
    (List.map_inj_right fun _ _ => (List.map_inj_right hshape).1).1 hlines
  have hcells : s.cells.toList = t.cells.toList := by
    rw [← Grid.flatten_rows, ← Grid.flatten_rows, hrows]
  obtain ⟨cells⟩ := s
  exact congrArg Grid.mk (Vector.toList_inj.1 hcells)

theorem text_eq_iff (s t : Screen w h) :
    s.text = t.text ↔ ∀ x y, Within w h x y → s.read x y = t.read x y := by
  constructor
  · intro htext x y hxy
    have hh : 0 < h := Int.lt_of_le_of_lt hxy.2.1 hxy.2.2
    rw [text_injective hh htext]
  · intro hread
    rw [ext_read hread]

end Screen

namespace ScreenCall

variable {w h : Int} {x y : Int} (s : Screen w h)

open Screen (Within)

theorem action_of_outside {c : ScreenCall} (hc : c.point? = some (x, y))
    (hxy : ¬ Within w h x y) : c.action s = .error (.outOfRange (.pixel x y w h)) s := by
  have hread := s.read_of_outside hxy
  cases c with
  | read | write | flip =>
    cases hc
    simp only [action, bind_apply, get_apply, proceed_ok, Screen.write, Screen.flip, hread,
      error_bind]
    rfl
  | clear => cases hc

section Within

variable (hxy : Within w h x y)
include hxy

theorem action_read : (read x y).action s = .ok (some (s.isOn x.toNat y.toNat)) s := by
  simp only [action, bind_apply, get_apply, proceed_ok, s.read_of_within hxy]
  rfl

theorem action_write (on : Bool) :
    (write x y on).action s = .ok none (s.put x.toNat y.toNat on) := by
  simp only [action, bind_apply, get_apply, proceed_ok, Screen.write, s.read_of_within hxy, ok_bind]
  rfl

theorem action_flip :
    (flip x y).action s =
      .ok (some (s.isOn x.toNat y.toNat)) (s.put x.toNat y.toNat !s.isOn x.toNat y.toNat) := by
  simp only [action, bind_apply, get_apply, proceed_ok, Screen.flip, s.read_of_within hxy, ok_bind]
  rfl

theorem action_of_within {c : ScreenCall} (hc : c.point? = some (x, y)) :
    ∃ answer s', c.action s = .ok answer s' := by
  cases c with
  | read =>
    cases hc
    exact ⟨_, _, action_read s hxy⟩
  | write x y on =>
    cases hc
    exact ⟨_, _, action_write s hxy on⟩
  | flip =>
    cases hc
    exact ⟨_, _, action_flip s hxy⟩
  | clear => cases hc

theorem isOn_leftBy (c : ScreenCall) :
    (leftBy c.action s).isOn x.toNat y.toNat =
      ((c.sets? x y).getD (s.isOn x.toNat y.toNat) ^^ decide (c = .flip x y)) := by
  -- A call at a point without a pixel is about another one.
  have hother : ∀ {x' y' : Int}, ¬ Within w h x' y' → ¬ (x' = x ∧ y' = y) := by
    rintro x' y' hxy' ⟨rfl, rfl⟩
    exact hxy' hxy
  cases c with
  | read x' y' =>
    by_cases hxy' : Within w h x' y'
    · rw [leftBy_of_ok (action_read s hxy')]
      simp [sets?]
    · rw [leftBy_of_error (action_of_outside s rfl hxy')]
      simp [sets?]
  | write x' y' on =>
    by_cases hxy' : Within w h x' y'
    · rw [leftBy_of_ok (action_write s hxy' on), s.isOn_put_toNat hxy' hxy]
      by_cases hsame : x' = x ∧ y' = y <;> simp [sets?, hsame]
    · rw [leftBy_of_error (action_of_outside s rfl hxy')]
      simp [sets?, hother hxy']
  | flip x' y' =>
    by_cases hxy' : Within w h x' y'
    · rw [leftBy_of_ok (action_flip s hxy'), s.isOn_put_toNat hxy' hxy]
      by_cases hsame : x' = x ∧ y' = y
      · simp [sets?, hsame]
      · simp [sets?, hsame]
    · rw [leftBy_of_error (action_of_outside s rfl hxy')]
      simp [sets?, hother hxy']
  | clear =>
    have hleft : leftBy clear.action s = Screen.blank := rfl
    rw [hleft, Screen.isOn_blank]
    simp [sets?]

end Within

theorem flipsSince_concat (x y : Int) (calls : List ScreenCall) (c : ScreenCall) :
    flipsSince x y (calls ++ [c]) =
      if (c.sets? x y).isNone then flipsSince x y calls + if c = .flip x y then 1 else 0 else 0 := by
  rw [flipsSince, sinceSet_concat]
  split
  · rw [List.count_cons, flipsSince]
    simp
  · rfl

theorem pixelAfter_concat (x y : Int) (before : Bool) (calls : List ScreenCall) (c : ScreenCall) :
    pixelAfter x y before (calls ++ [c]) =
      ((c.sets? x y).getD (pixelAfter x y before calls) ^^ decide (c = .flip x y)) := by
  rw [pixelAfter, lastSet?_concat, flipsSince_concat]
  cases hc : c.sets? x y with
  | some on =>
    have hflip : c ≠ .flip x y := by
      rintro rfl
      cases hc
    simp [hflip]
  | none =>
    rw [pixelAfter]
    by_cases hflip : c = .flip x y
    · have hodd : decide ((flipsSince x y calls + 1) % 2 = 1) =
          !decide (flipsSince x y calls % 2 = 1) := by
        rw [← decide_not, decide_eq_decide]
        omega
      simp only [Option.isNone_none, if_true, if_pos hflip, hodd, Option.none_or, Option.getD_none,
        decide_eq_true hflip, Bool.xor_not, Bool.xor_true]
    · simp [hflip]

theorem isOn_afterAll (hxy : Within w h x y) (calls : List ScreenCall) :
    (afterAll action s calls).isOn x.toNat y.toNat =
      pixelAfter x y (s.isOn x.toNat y.toNat) calls := by
  induction calls using List.reverseRecOn with
  | nil => simp [afterAll, pixelAfter, flipsSince, lastSet?_nil, sinceSet_nil]
  | append_singleton calls c ih =>
    rw [afterAll_concat, pixelAfter_concat, ← ih]
    exact isOn_leftBy _ hxy c

end ScreenCall

namespace Screen

variable {w h : Nat}

structure Rectangular (s : Screen w h) : Prop where
  size_eq : s.cells.toList.length = w * h
  rows_length : s.rows.length = h
  row_length : ∀ row ∈ s.rows, row.length = w
  rows_read : ∀ x y : Nat, (s.rows[y]?.bind fun row => row[x]?) = (s.read x y).toOption
  flatten_rows : s.rows.flatten = s.cells.toList

theorem rectangular (s : Screen w h) : s.Rectangular where
  size_eq := Vector.length_toList
  rows_length := by simp [Grid.rows]
  row_length row hrow := by
    obtain ⟨y, hy, rfl⟩ := List.mem_map.1 hrow
    exact s.length_row (List.mem_range.1 hy)
  rows_read x y := by
    have hread : (s.read x y).toOption = s.get? x y := by
      rw [read, s.at?_natCast]
      cases s.get? x y <;> rfl
    rw [hread]
    by_cases hy : y < (h : Int).toNat
    · rw [s.getElem?_rows.2 ⟨hy, rfl⟩, Option.bind_some, s.getElem?_row hy]
    · have hnone : s.rows[y]? = none := by
        rw [List.getElem?_eq_none_iff, Grid.rows, List.length_map, List.length_range]
        exact Nat.le_of_not_lt hy
      rw [hnone, Grid.get?, dif_neg fun hxy => hy hxy.2, Option.bind_none]
  flatten_rows := Grid.flatten_rows s

/-- A call is refused, and then changes nothing, or it is about a pixel and changes no other one. -/
structure Plots (s : Screen w h) : Prop where
  fails_iff : ∀ (c : ScreenCall) f s', c.action s = .error f s' ↔
    ∃ x y, c.point? = some (x, y) ∧ ¬ Within w h x y ∧ f = .outOfRange (.pixel x y w h) ∧ s' = s
  reads : ∀ x y, Within w h x y → ∃ on, (ScreenCall.read x y).action s = .ok (some on) s ∧
    s.read x y = .ok on
  writes : ∀ x y on, Within w h x y → ∃ s', (ScreenCall.write x y on).action s = .ok none s' ∧
    ∀ x' y', s'.read x' y' = if x = x' ∧ y = y' then .ok on else s.read x' y'
  flips : ∀ x y, Within w h x y → ∃ old s', (ScreenCall.flip x y).action s = .ok (some old) s' ∧
    s.read x y = .ok old ∧
    ∀ x' y', s'.read x' y' = if x = x' ∧ y = y' then .ok !old else s.read x' y'
  clears : ∃ s', ScreenCall.clear.action s = .ok none s' ∧
    ∀ x y, Within w h x y → s'.read x y = .ok false

open ScreenCall in
theorem plots (s : Screen w h) : s.Plots where
  fails_iff c f s' := by
    constructor
    · intro hfails
      cases hc : c.point? with
      | none =>
        cases c with
        | clear => cases hfails
        | read | write | flip => cases hc
      | some point =>
        obtain ⟨x, y⟩ := point
        by_cases hxy : Within w h x y
        · obtain ⟨answer, left, hdone⟩ := action_of_within s hxy hc
          rw [hdone] at hfails
          cases hfails
        · rw [action_of_outside s hc hxy] at hfails
          cases hfails
          exact ⟨x, y, rfl, hxy, rfl, rfl⟩
    · rintro ⟨x, y, hc, hxy, rfl, rfl⟩
      exact action_of_outside s' hc hxy
  reads x y hxy := ⟨_, action_read s hxy, s.read_of_within hxy⟩
  writes x y on hxy := ⟨_, action_write s hxy on, s.read_put hxy on⟩
  flips x y hxy := ⟨_, _, action_flip s hxy, s.read_of_within hxy, s.read_put hxy _⟩
  clears := by
    refine ⟨blank, rfl, fun x y hxy => ?_⟩
    rw [read_of_within _ hxy, isOn_blank]

/-- However a screen has been used, it is a rectangle of pixels that are as their last calls say, and its text tells
all of them. -/
theorem plotted_by_calls (w h : Nat) (calls : List ScreenCall) :
    let s : Screen w h := afterAll ScreenCall.action blank calls
    (∀ start : Screen w h, ofSize w h = .ok start → start = blank) ∧ s.Rectangular ∧ s.Plots ∧
      (∀ x y, Within w h x y → s.read x y = .ok (ScreenCall.pixelAfter x y false calls)) ∧
      ∀ s t : Screen w h, s.text = t.text ↔ ∀ x y, Within w h x y → s.read x y = t.read x y := by
  refine ⟨fun start hstart => ?_, rectangular _, plots _, fun x y hxy => ?_, text_eq_iff⟩
  · unfold ofSize at hstart
    split at hstart
    · cases hstart
    · dsimp only at hstart
      split at hstart
      · cases hstart
      · exact (Except.ok.inj hstart).symm
  · rw [read_of_within _ hxy, ScreenCall.isOn_afterAll _ hxy, isOn_blank]

theorem dot_plotted_after_clearing :
    let calls : List ScreenCall := [.write 0 0 true, .flip 1 0, .clear, .flip 1 0, .flip 1 1]
    let s : Screen (2 : Nat) (1 : Nat) := afterAll ScreenCall.action blank calls
    (ofSize (2 : Nat) (1 : Nat) = .ok blank ∧ Within (2 : Nat) (1 : Nat) 1 0) ∧
      s.read 1 0 = .ok true ∧ s.text ≠ (blank : Screen (2 : Nat) (1 : Nat)).text := by
  intro calls s
  have hpoint : Within (2 : Nat) (1 : Nat) 1 0 := by decide
  obtain ⟨-, -, -, hread, htext⟩ := plotted_by_calls 2 1 calls
  have hon : s.read 1 0 = .ok true := (hread 1 0 hpoint).trans (by decide)
  refine ⟨⟨by decide, hpoint⟩, hon, fun hblank => ?_⟩
  have hoff := (htext s blank).1 hblank 1 0 hpoint
  rw [hon, read_of_within _ hpoint, isOn_blank] at hoff
  cases hoff

end Screen

end ChipEight
