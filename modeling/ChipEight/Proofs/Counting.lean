import Mathlib.Algebra.Ring.Nat
import ChipEight.Proofs.Decoding

/-! How many words a template admits, and how many no template does. -/

namespace ChipEight

section Counts

variable {α : Type} {l : List α}

theorem countP_or {p q : α → Bool} (h : ∀ a ∈ l, p a = true → q a = false) :
    (l.countP fun a => p a || q a) = l.countP p + l.countP q := by
  induction l with
  | nil => rfl
  | cons a l ih =>
    rw [List.forall_mem_cons] at h
    rw [List.countP_cons, List.countP_cons, List.countP_cons, ih h.2]
    cases hp : p a with
    | false => simp only [Bool.false_or, Bool.false_eq_true, if_false, Nat.add_zero, Nat.add_assoc]
    | true => simp only [h.1 hp, Bool.true_or, Bool.false_eq_true, if_true, if_false, Nat.add_zero,
        Nat.add_right_comm]

theorem countP_not (p : α → Bool) (l : List α) :
    (l.countP fun a => !p a) = l.length - l.countP p := by
  have htotal := List.length_eq_countP_add_countP p (l := l)
  simp only [Bool.not_eq_true, Bool.decide_eq_false] at htotal
  omega

theorem countP_range_digits {b : Nat} (hb : 0 < b) (p q : Nat → Bool) (a : Nat) :
    ((List.range (a * b)).countP fun v => p (v / b) && q (v % b)) =
      (List.range a).countP p * (List.range b).countP q := by
  induction a with
  | zero => simp only [Nat.zero_mul, List.range_zero, List.countP_nil]
  | succ a ih =>
    have hdigits : ∀ d ∈ List.range b,
        (p ((a * b + d) / b) && q ((a * b + d) % b)) = (p a && q d) := by
      intro d hd
      have hlt := List.mem_range.1 hd
      rw [Nat.mul_comm a b, Nat.mul_add_div hb, Nat.div_eq_of_lt hlt, Nat.add_zero,
        Nat.mul_add_mod, Nat.mod_eq_of_lt hlt]
    have hlast : ((List.range b).countP fun d => p ((a * b + d) / b) && q ((a * b + d) % b)) =
        [a].countP p * (List.range b).countP q := by
      rw [List.countP_congr fun d hd => by rw [hdigits d hd]]
      cases hp : p a <;> simp [hp]
    rw [Nat.succ_mul, List.range_add, List.countP_append, ih, List.countP_map, List.range_succ,
      List.countP_append, Nat.add_mul]
    exact congrArg _ hlast

end Counts

namespace Place

def admitAll : List Place → Nat → Bool
  | [], _ => true
  | p :: ps, v => admitAll ps (v / 16) && p.admits (BitVec.ofNat 4 (v % 16))

theorem count_digits (p : Place) :
    ((List.range 16).countP fun d => p.admits (BitVec.ofNat 4 d)) =
      16 ^ if p.isWild then 1 else 0 := by
  cases p with
  | digit d =>
    revert d
    decide
  | x | y | n => rfl

theorem count_admitAll (ps : List Place) :
    (List.range (16 ^ ps.length)).countP (admitAll ps) = 16 ^ ps.countP isWild := by
  induction ps with
  | nil => simp [admitAll]
  | cons p ps ih =>
    rw [List.length_cons, Nat.pow_succ, List.countP_cons, Nat.pow_add, ← ih, ← p.count_digits]
    exact countP_range_digits (by decide) (admitAll ps) (fun d => p.admits (BitVec.ofNat 4 d)) _

end Place

namespace Word

def all : List Word :=
  (List.range 65536).map (BitVec.ofNat 16)

theorem length_all : all.length = 65536 := by
  rw [all, List.length_map, List.length_range]

theorem digit_ofNat {v : Nat} (hv : v < 65536) (i : Nat) :
    (BitVec.ofNat 16 v).extractLsb' i 4 = BitVec.ofNat 4 (v / 2 ^ i % 16) := by
  apply BitVec.eq_of_toNat_eq
  rw [BitVec.extractLsb'_toNat, BitVec.toNat_ofNat, BitVec.toNat_ofNat, Nat.mod_eq_of_lt hv,
    Nat.shiftRight_eq_div_pow]
  exact (Nat.mod_mod ..).symm

end Word

namespace Template

theorem admits_ofNat (t : Template) {v : Nat} (hv : v < 65536) :
    t.admits (BitVec.ofNat 16 v) = Place.admitAll t.places.reverse v := by
  simp only [admits, Word.digit_ofNat hv, places, List.reverse_cons, List.reverse_nil,
    List.nil_append, List.cons_append, Place.admitAll, Nat.div_div_eq_div_mul, Bool.true_and]
  rw [Nat.pow_zero, Nat.div_one]
  rfl

/-- A template with `k` letters admits `16 ^ k` words. -/
theorem count_admits (t : Template) : Word.all.countP t.admits = 16 ^ t.wildcards := by
  have hplaces := Place.count_admitAll t.places.reverse
  have hlength : t.places.reverse.length = 4 := rfl
  have hsize : 16 ^ 4 = 65536 := by decide
  rw [hlength, hsize, List.countP_reverse] at hplaces
  rw [wildcards, ← hplaces, Word.all, List.countP_map]
  exact List.countP_congr fun v hv => by
    rw [Function.comp_apply, t.admits_ofNat (List.mem_range.1 hv)]

theorem countP_any_admits {ts : List Template} (h : ts.Pairwise fun s t => s.differ t)
    (words : List Word) :
    (words.countP fun w => ts.any fun t => t.admits w) =
      (ts.map fun t => words.countP t.admits).sum := by
  induction ts with
  | nil => simp only [List.any_nil, List.countP_false, List.map_nil, List.sum_nil, Function.const]
  | cons t ts ih =>
    rw [List.pairwise_cons] at h
    have hapart : ∀ w ∈ words, t.admits w = true → (ts.any fun s => s.admits w) = false := by
      intro w _ ht
      rw [List.any_eq_false]
      intro s hs
      rw [not_admits_of_differ (h.1 s hs) ht]
      exact Bool.false_ne_true
    rw [List.map_cons, List.sum_cons, ← ih h.2, ← countP_or hapart]
    simp only [List.any_cons]

end Template

namespace Form

def apart : List Template :=
  (all.filter fun f => f ≠ .clearScreen ∧ f ≠ .ret).map template

theorem any_apart {w : Word} :
    (apart.any fun t => t.admits w) = true ↔ ∃ f : Form, f.template.admits w = true := by
  rw [apart, List.any_map, List.any_eq_true]
  constructor
  · rintro ⟨f, -, hf⟩
    exact ⟨f, hf⟩
  rintro ⟨f, hf⟩
  by_cases hroutine : f = .clearScreen ∨ f = .ret
  · have hlead : f.template.lead = 0 := by
      rcases hroutine with rfl | rfl <;> rfl
    rw [Template.lead_of_admits hf] at hlead
    refine ⟨.callMachineRoutine, by decide, ?_⟩
    rw [Function.comp_apply, Template.admits, hlead]
    rfl
  · refine ⟨f, ?_, hf⟩
    rw [List.mem_filter, decide_eq_true_iff, ← not_or]
    exact ⟨mem_all f, hroutine⟩

theorem apart_differ : apart.Pairwise fun s t => s.differ t := by
  decide +kernel

theorem sum_apart :
    (apart.map fun t => 16 ^ t.wildcards).sum = 12 * 16 ^ 3 + 10 * 16 ^ 2 + 11 * 16 := by
  decide +kernel

theorem count_unknown : (Word.all.countP fun w => !apart.any fun t => t.admits w) = 13648 := by
  have hknown := Template.countP_any_admits apart_differ Word.all
  simp only [Template.count_admits] at hknown
  have hrest : 65536 - (12 * 16 ^ 3 + 10 * 16 ^ 2 + 11 * 16) = 13648 := by decide
  rw [countP_not, Word.length_all, hknown, sum_apart, hrest]

end Form

end ChipEight
