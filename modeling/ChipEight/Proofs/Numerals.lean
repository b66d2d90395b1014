import ChipEight.Nibble

/-! Numerals are read back as the numbers they were written for. -/

namespace ChipEight

open Text

def readNumeral? (base : Nat) (cs : List Char) : Option Nat :=
  (cs.mapM Nibble.ofDigit?).map fun ds => ofDigits base (ds.map BitVec.toNat)

theorem mapM_ofDigit? {α : Type} {digit : α → Char} {value : α → Nibble} {ds : List α}
    (h : ∀ d ∈ ds, Nibble.ofDigit? (digit d) = some (value d)) :
    (ds.map digit).mapM Nibble.ofDigit? = some (ds.map value) := by
  induction ds with
  | nil => rfl
  | cons d ds ih =>
    rw [List.forall_mem_cons] at h
    simp [h.1, ih h.2]

theorem readNumeral?_digits (base : Nat) (ds : List Nibble) :
    readNumeral? base (ds.map Nibble.digit) = some (ofDigits base (ds.map BitVec.toNat)) := by
  have hall : (ds.map Nibble.digit).mapM Nibble.ofDigit? = some (ds.map id) :=
    mapM_ofDigit? fun d _ => d.ofDigit?_digit
  rw [readNumeral?, hall, List.map_id, Option.map_some]

namespace Text

theorem ofDigits_replicate_zero (base k : Nat) (ds : List Nat) :
    ofDigits base (List.replicate k 0 ++ ds) = ofDigits base ds := by
  have hzeros : ofDigits base (List.replicate k 0) = 0 := by
    induction k with
    | zero => rfl
    | succ k ih => rw [List.replicate_succ', ofDigits_append_singleton, ih, Nat.zero_mul]
  rw [ofDigits, List.foldl_append]
  exact congrArg (ds.foldl _) hzeros

theorem numeral_natCast (base width n : Nat) :
    ∃ k, numeral base width n = (List.replicate k 0 ++ digits base n).map lowerDigit := by
  have hneg : ¬ (n : Int) < 0 := by omega
  refine ⟨width - (digits base n).length, ?_⟩
  rw [List.map_append, List.map_replicate]
  simp only [numeral, if_neg hneg, Int.natAbs_natCast, List.nil_append, List.length_nil,
    List.length_map, Nat.zero_add]
  rfl

theorem numeral_ne_nil (base width n : Nat) : numeral base width n ≠ [] := by
  obtain ⟨k, hnumeral⟩ := numeral_natCast base width n
  have hdigits : digits base n ≠ [] := by
    rw [digits]
    split
    · exact List.append_ne_nil_of_right_ne_nil _ (List.cons_ne_nil _ _)
    · exact List.cons_ne_nil _ _
  rw [hnumeral, Ne, List.map_eq_nil_iff]
  exact List.append_ne_nil_of_right_ne_nil _ hdigits

theorem exists_of_mem_numeral {base width n : Nat} (hb : 2 ≤ base) {c : Char}
    (hc : c ∈ numeral base width n) : ∃ d < base, c = lowerDigit d := by
  obtain ⟨k, hnumeral⟩ := numeral_natCast base width n
  rw [hnumeral, List.mem_map] at hc
  obtain ⟨d, hd, rfl⟩ := hc
  refine ⟨d, ?_, rfl⟩
  rcases List.mem_append.1 hd with hd | hd
  · rw [List.eq_of_mem_replicate hd]
    omega
  · exact lt_of_mem_digits hb n d hd

theorem ofDigit?_lowerDigit {d : Nat} (hd : d < 16) :
    Nibble.ofDigit? (lowerDigit d) = some (BitVec.ofNat 4 d) := by
  revert d
  decide

theorem readNumeral?_numeral {base : Nat} (hb : 2 ≤ base) (hb' : base ≤ 16) (width n : Nat) :
    readNumeral? base (numeral base width n) = some n := by
  obtain ⟨k, hnumeral⟩ := numeral_natCast base width n
  have hsmall : ∀ d ∈ List.replicate k 0 ++ digits base n, d < 16 := by
    intro d hd
    rcases List.mem_append.1 hd with hd | hd
    · rw [List.eq_of_mem_replicate hd]
      decide
    · have := lt_of_mem_digits hb n d hd
      omega
  have hvalue : (List.replicate k 0 ++ digits base n).map (BitVec.toNat ∘ BitVec.ofNat 4) =
      List.replicate k 0 ++ digits base n := by
    refine (List.map_congr_left fun d hd => ?_).trans (List.map_id _)
    rw [Function.comp_apply, BitVec.toNat_ofNat, Nat.mod_eq_of_lt (hsmall d hd)]
    rfl
  rw [readNumeral?, hnumeral, mapM_ofDigit? fun d hd => ofDigit?_lowerDigit (hsmall d hd),
    Option.map_some, List.map_map, hvalue, ofDigits_replicate_zero, ofDigits_digits hb]

theorem numeral_natCast_injective {base : Nat} (hb : 2 ≤ base) (hb' : base ≤ 16) {width n n' : Nat}
    (h : numeral base width n = numeral base width n') : n = n' := by
  have hread := readNumeral?_numeral hb hb' width n
  rw [h, readNumeral?_numeral hb hb'] at hread
  exact (Option.some.inj hread).symm

theorem numeral_of_neg (base width : Nat) {v : Int} (hv : v < 0) :
    numeral base width v = '-' :: numeral base (width - 1) v.natAbs := by
  have hneg : ¬ (v.natAbs : Int) < 0 := by omega
  simp only [numeral, if_pos hv, if_neg hneg, Int.natAbs_natCast, List.length_singleton,
    List.length_nil, Nat.zero_add, Nat.sub_add_eq, List.nil_append, List.cons_append]

section Characters

variable {base : Nat} (hb : 2 ≤ base) (hb' : base ≤ 16) {c : Char}
include hb hb'

theorem not_mem_numeral_natCast (hdigit : ∀ d < 16, c ≠ lowerDigit d) (width n : Nat) :
    c ∉ numeral base width n := by
  intro hc
  obtain ⟨d, hd, heq⟩ := exists_of_mem_numeral hb hc
  exact hdigit d (Nat.lt_of_lt_of_le hd hb') heq

theorem not_mem_numeral (hsign : c ≠ '-') (hdigit : ∀ d < 16, c ≠ lowerDigit d) (width : Nat)
    (v : Int) : c ∉ numeral base width v := by
  by_cases hv : v < 0
  · rw [numeral_of_neg base width hv, List.mem_cons, not_or]
    exact ⟨hsign, not_mem_numeral_natCast hb hb' hdigit _ _⟩
  · rw [← Int.natAbs_of_nonneg (Int.not_lt.1 hv)]
    exact not_mem_numeral_natCast hb hb' hdigit _ _

theorem numeral_injective {width : Nat} {v v' : Int}
    (h : numeral base width v = numeral base width v') : v = v' := by
  -- A sign tells negative numbers from all others.
  have hsign : ∀ {v v' : Int}, v < 0 → ¬ v' < 0 → numeral base width v ≠ numeral base width v' := by
    intro v v' hv hv' heq
    have hmem : '-' ∈ numeral base width v' := by
      rw [← heq, numeral_of_neg base width hv]
      exact List.mem_cons_self
    rw [← Int.natAbs_of_nonneg (Int.not_lt.1 hv')] at hmem
    exact not_mem_numeral_natCast hb hb' (by decide) _ _ hmem
  by_cases hv : v < 0 <;> by_cases hv' : v' < 0
  · rw [numeral_of_neg base width hv, numeral_of_neg base width hv'] at h
    have habs := numeral_natCast_injective hb hb' (List.cons.inj h).2
    omega
  · exact absurd h (hsign hv hv')
  · exact absurd h.symm (hsign hv' hv)
  · rw [← Int.natAbs_of_nonneg (Int.not_lt.1 hv), ← Int.natAbs_of_nonneg (Int.not_lt.1 hv')] at h ⊢
    rw [numeral_natCast_injective hb hb' h]

end Characters

end Text

end ChipEight
