import ChipEight.Proofs.Components

/-! Screens pixel by pixel, and what becomes of one when the pixels of a pattern are inverted. -/

namespace ChipEight

namespace Grid

variable {α : Type} {w h : Nat}

theorem index_injective {x y x' y' : Nat} (hx : x < w) (hx' : x' < w)
    (he : x + y * w = x' + y' * w) : x = x' ∧ y = y' := by
  have hw : 0 < w := by omega
  have hmod := congrArg (· % w) he
  have hdiv := congrArg (· / w) he
  simp only [Nat.add_mul_mod_self_right, Nat.mod_eq_of_lt hx, Nat.mod_eq_of_lt hx'] at hmod
  simp only [Nat.add_mul_div_right _ _ hw, Nat.div_eq_of_lt hx, Nat.div_eq_of_lt hx',
    Nat.zero_add] at hdiv
  exact ⟨hmod, hdiv⟩

theorem get?_eq_getElem? (g : Grid α w h) {x y : Nat} (hxy : x < w ∧ y < h) :
    g.get? x y = g.cells[x + y * w]? := by
  rw [get?, dif_pos hxy]
  exact (Vector.getElem?_eq_getElem (index_lt hxy)).symm

theorem get?_put (g : Grid α w h) (x y : Nat) (a : α) {x' y' : Nat} (hxy' : x' < w ∧ y' < h) :
    (g.put x y a).get? x' y' = if x' = x ∧ y' = y then some a else g.get? x' y' := by
  by_cases he : x' = x ∧ y' = y
  · obtain ⟨rfl, rfl⟩ := he
    rw [put, dif_pos hxy', get?_eq_getElem? _ hxy', if_pos ⟨rfl, rfl⟩]
    exact Vector.getElem?_set_self (index_lt hxy')
  · rw [if_neg he]
    by_cases hxy : x < w ∧ y < h
    · rw [put, dif_pos hxy, get?_eq_getElem? _ hxy', get?_eq_getElem? _ hxy']
      exact Vector.getElem?_set_ne (index_lt hxy) fun hi =>
        he ((index_injective hxy.1 hxy'.1 hi).imp Eq.symm Eq.symm)
    · rw [put, dif_neg hxy]

theorem ext_get? {g g' : Grid α w h} (he : ∀ x y, x < w ∧ y < h → g.get? x y = g'.get? x y) :
    g = g' := by
  obtain ⟨cells⟩ := g
  obtain ⟨cells'⟩ := g'
  congr 1
  ext i hi
  have hw : 0 < w := Nat.pos_of_ne_zero fun h0 => by simp [h0] at hi
  have hxy : i % w < w ∧ i / w < h :=
    ⟨Nat.mod_lt i hw, (Nat.div_lt_iff_lt_mul hw).2 (by rwa [Nat.mul_comm])⟩
  have := he (i % w) (i / w) hxy
  rw [get?_eq_getElem? _ hxy, get?_eq_getElem? _ hxy, Nat.mod_add_div'] at this
  simpa only [Vector.getElem?_eq_getElem hi, Option.some.injEq] using this

def isOn (g : Grid Bool w h) (x y : Nat) : Bool :=
  (g.get? x y).getD false

theorem get?_eq_isOn (g : Grid Bool w h) {x y : Nat} (hxy : x < w ∧ y < h) :
    g.get? x y = some (g.isOn x y) := by
  rw [isOn, get?, dif_pos hxy, Option.getD_some]

theorem ext_isOn {g g' : Grid Bool w h}
    (he : ∀ x y, x < w ∧ y < h → g.isOn x y = g'.isOn x y) : g = g' := by
  apply ext_get?
  intro x y hxy
  rw [get?_eq_isOn g hxy, get?_eq_isOn g' hxy, he x y hxy]

def inverted (g : Grid Bool w h) (p : Nat → Nat → Bool) : Grid Bool w h :=
  ⟨g.cells.mapIdx fun i on => on ^^ p (i % w) (i / w)⟩

def meets (g : Grid Bool w h) (p : Nat → Nat → Bool) : Bool :=
  decide (∃ x < w, ∃ y < h, g.isOn x y ∧ p x y)

theorem meets_iff {g : Grid Bool w h} {p : Nat → Nat → Bool} :
    g.meets p = true ↔ ∃ x y, (x < w ∧ y < h) ∧ g.isOn x y = true ∧ p x y = true := by
  rw [meets, decide_eq_true_iff]
  constructor
  · rintro ⟨x, hx, y, hy, hon, hp⟩
    exact ⟨x, y, ⟨hx, hy⟩, hon, hp⟩
  · rintro ⟨x, y, ⟨hx, hy⟩, hon, hp⟩
    exact ⟨x, hx, y, hy, hon, hp⟩

theorem isOn_inverted (g : Grid Bool w h) (p : Nat → Nat → Bool) {x y : Nat}
    (hxy : x < w ∧ y < h) : (g.inverted p).isOn x y = (g.isOn x y ^^ p x y) := by
  have hw : 0 < w := Nat.zero_lt_of_lt hxy.1
  have hget : (g.inverted p).get? x y = some (g.isOn x y ^^ p x y) := by
    have hcell := get?_eq_isOn g hxy
    rw [get?_eq_getElem? _ hxy] at hcell
    rw [get?_eq_getElem? _ hxy, inverted, Vector.getElem?_mapIdx, hcell, Option.map_some,
      Nat.add_mul_mod_self_right, Nat.mod_eq_of_lt hxy.1, Nat.add_mul_div_right _ _ hw,
      Nat.div_eq_of_lt hxy.1, Nat.zero_add]
  rw [isOn, hget, Option.getD_some]

theorem inverted_congr (g : Grid Bool w h) {p q : Nat → Nat → Bool}
    (hpq : ∀ x y, x < w ∧ y < h → p x y = q x y) : g.inverted p = g.inverted q := by
  apply ext_isOn
  intro x y hxy
  rw [isOn_inverted _ _ hxy, isOn_inverted _ _ hxy, hpq x y hxy]

theorem meets_congr (g : Grid Bool w h) {p q : Nat → Nat → Bool}
    (hpq : ∀ x y, x < w ∧ y < h → p x y = q x y) : g.meets p = g.meets q := by
  rw [Bool.eq_iff_iff, meets_iff, meets_iff]
  constructor
  · rintro ⟨x, y, hxy, hon, hp⟩
    exact ⟨x, y, hxy, hon, hpq x y hxy ▸ hp⟩
  · rintro ⟨x, y, hxy, hon, hq⟩
    exact ⟨x, y, hxy, hon, (hpq x y hxy).symm ▸ hq⟩

theorem inverted_nowhere (g : Grid Bool w h) {p : Nat → Nat → Bool}
    (hp : ∀ x y, x < w ∧ y < h → p x y = false) : g.inverted p = g := by
  apply ext_isOn
  intro x y hxy
  rw [isOn_inverted _ _ hxy, hp x y hxy, Bool.xor_false]

theorem meets_nowhere (g : Grid Bool w h) {p : Nat → Nat → Bool}
    (hp : ∀ x y, x < w ∧ y < h → p x y = false) : g.meets p = false := by
  rw [Bool.eq_false_iff, Ne, meets_iff]
  rintro ⟨x, y, hxy, -, hon⟩
  rw [hp x y hxy] at hon
  cases hon

theorem inverted_inverted (g : Grid Bool w h) {p q : Nat → Nat → Bool}
    (hpq : ∀ x y, p x y = true → q x y = false) :
    (g.inverted p).inverted q = g.inverted fun x y => p x y || q x y := by
  apply ext_isOn
  intro x y hxy
  simp only [isOn_inverted _ _ hxy, Bool.xor_assoc]
  cases hp : p x y
  · simp only [Bool.false_bne, Bool.false_or]
  · rw [hpq x y hp]
    simp

theorem meets_inverted (g : Grid Bool w h) {p q : Nat → Nat → Bool}
    (hpq : ∀ x y, p x y = true → q x y = false) : (g.inverted p).meets q = g.meets q := by
  have hon : ∀ x y, x < w ∧ y < h → q x y = true → (g.inverted p).isOn x y = g.isOn x y := by
    intro x y hxy hq
    have hp : p x y = false := by
      cases hp : p x y
      · rfl
      · rw [hpq x y hp] at hq
        cases hq
    rw [isOn_inverted _ _ hxy, hp, Bool.xor_false]
  rw [Bool.eq_iff_iff, meets_iff, meets_iff]
  constructor
  · rintro ⟨x, y, hxy, h1, hq⟩
    exact ⟨x, y, hxy, hon x y hxy hq ▸ h1, hq⟩
  · rintro ⟨x, y, hxy, h1, hq⟩
    exact ⟨x, y, hxy, (hon x y hxy hq).symm ▸ h1, hq⟩

theorem meets_or (g : Grid Bool w h) (p q : Nat → Nat → Bool) :
    g.meets (fun x y => p x y || q x y) = (g.meets p || g.meets q) := by
  rw [Bool.eq_iff_iff]
  simp only [Bool.or_eq_true, meets_iff]
  constructor
  · rintro ⟨x, y, hxy, hon, hp | hq⟩
    · exact .inl ⟨x, y, hxy, hon, hp⟩
    · exact .inr ⟨x, y, hxy, hon, hq⟩
  · rintro (⟨x, y, hxy, hon, hp⟩ | ⟨x, y, hxy, hon, hq⟩)
    · exact ⟨x, y, hxy, hon, .inl hp⟩
    · exact ⟨x, y, hxy, hon, .inr hq⟩

end Grid

def pixel (x y px py : Nat) : Bool :=
  px = x && py = y

theorem Grid.meets_pixel {w h : Nat} (g : Grid Bool w h) {x y : Nat} (hxy : x < w ∧ y < h) :
    g.meets (pixel x y) = g.isOn x y := by
  rw [Bool.eq_iff_iff, meets_iff]
  constructor
  · rintro ⟨px, py, -, hon, hp⟩
    obtain ⟨rfl, rfl⟩ : px = x ∧ py = y := by simpa [pixel] using hp
    exact hon
  · intro hon
    exact ⟨x, y, hxy, hon, by simp [pixel]⟩

theorem Screen.flip_eq_ok {w h : Int} (s : Screen w h) {x y : Nat}
    (hxy : x < w.toNat ∧ y < h.toNat) :
    s.flip x y = .ok (s.isOn x y, s.inverted (pixel x y)) := by
  have hread : s.read x y = .ok (s.isOn x y) := by
    rw [read, Grid.at?, if_pos (by omega), Int.toNat_natCast, Int.toNat_natCast,
      s.get?_eq_isOn hxy]
  have hput : s.put x y (!s.isOn x y) = s.inverted (pixel x y) := by
    apply Grid.ext_isOn
    intro x' y' hxy'
    rw [Grid.isOn_inverted _ _ hxy', Grid.isOn, Grid.get?_put _ _ _ _ hxy', pixel]
    by_cases he : x' = x ∧ y' = y
    · simp [he]
    · rw [if_neg he, ← Grid.isOn, ← Bool.decide_and, decide_eq_false he, Bool.xor_false]
  rw [flip, hread, ok_bind, Int.toNat_natCast, Int.toNat_natCast, hput]
  rfl

end ChipEight
