import ChipEight.Instruction.Decoder

/-! The decoder finds the most specific form whose template admits a word, in whatever order the forms
have been given to it. -/

namespace ChipEight

namespace Template

theorem wildcards_lt (t : Template) : t.wildcards < 4 := by
  have htail : (List.countP Place.isWild [t.second, t.third, t.fourth]) ≤ 3 :=
    List.countP_le_length
  rw [wildcards, places, List.countP_cons_of_neg Bool.false_ne_true]
  exact Nat.lt_succ_of_le htail

theorem lead_of_admits {t : Template} {w : Word} (h : t.admits w = true) :
    t.lead = w.extractLsb' 12 4 := by
  simp only [admits, Bool.and_eq_true] at h
  exact eq_of_beq h.1.1.1

def clash : Place → Place → Bool
  | .digit d, .digit e => d != e
  | _, _ => false

theorem not_admits_of_clash {p q : Place} {d : Nibble} (h : clash p q = true)
    (hp : p.admits d = true) : q.admits d = false := by
  cases p with
  | digit a =>
    cases q with
    | digit b =>
      obtain rfl : a = d := eq_of_beq hp
      have hne : a ≠ b := ne_of_apply_ne id (by simpa [clash] using h)
      exact beq_eq_false_iff_ne.2 hne.symm
    | _ => cases h
  | _ => cases h

def differ (s t : Template) : Bool :=
  s.lead != t.lead || clash s.second t.second || clash s.third t.third || clash s.fourth t.fourth

theorem not_admits_of_differ {s t : Template} {w : Word} (h : s.differ t = true)
    (hs : s.admits w = true) : t.admits w = false := by
  simp only [admits, Bool.and_eq_true] at hs
  obtain ⟨⟨⟨hlead, hsecond⟩, hthird⟩, hfourth⟩ := hs
  simp only [differ, Bool.or_eq_true] at h
  rcases h with ((h | h) | h) | h
  · have hne : t.lead ≠ w.extractLsb' 12 4 := by
      intro ht
      rw [eq_of_beq hlead, ht, bne_self_eq_false] at h
      cases h
    rw [admits, beq_eq_false_iff_ne.2 hne]
    rfl
  · rw [admits, not_admits_of_clash h hsecond, Bool.and_false]
    rfl
  · rw [admits, not_admits_of_clash h hthird, Bool.and_false]
    rfl
  · rw [admits, not_admits_of_clash h hfourth, Bool.and_false]

end Template

theorem mem_mostSpecificFirst {forms : List Form} {f : Form} :
    f ∈ mostSpecificFirst forms ↔ f ∈ forms := by
  simp only [mostSpecificFirst, List.mem_flatMap, List.mem_range, List.mem_filter,
    decide_eq_true_eq]
  constructor
  · rintro ⟨k, _, hf, _⟩
    exact hf
  · intro hf
    exact ⟨_, f.template.wildcards_lt, hf, rfl⟩

theorem mostSpecificFirst_sorted (forms : List Form) :
    (mostSpecificFirst forms).Pairwise fun f g => f.template.wildcards ≤ g.template.wildcards := by
  have hmem : ∀ {k : Nat} {f : Form}, f ∈ forms.filter (·.template.wildcards = k) →
      f.template.wildcards = k := fun hf => of_decide_eq_true (List.mem_filter.1 hf).2
  refine List.pairwise_flatMap.2 ⟨?_, ?_⟩
  · intro k _
    refine List.pairwise_of_forall_mem_list ?_
    intro f hf g hg
    exact Nat.le_of_eq ((hmem hf).trans (hmem hg).symm)
  · refine List.pairwise_lt_range.imp ?_
    intro k l hkl f hf g hg
    rw [hmem hf, hmem hg]
    exact Nat.le_of_lt hkl

namespace Table

variable {forms : List Form} {w : Word}

theorem group_eq (forms : List Form) (d : Nibble) :
    (ofForms forms).groups.get d =
      mostSpecificFirst (forms.filter (·.template.lead.toFin = d.toFin)) := by
  have hd : d.toNat < 16 := d.isLt
  have hget : ∀ b : Bank (List Form), b.get d = b.cells[d.toNat] := fun _ => rfl
  rw [hget]
  exact Vector.getElem_ofFn hd

theorem mem_group {f : Form} {d : Nibble} :
    f ∈ (ofForms forms).groups.get d ↔ f ∈ forms ∧ f.template.lead = d := by
  rw [group_eq, mem_mostSpecificFirst, List.mem_filter, decide_eq_true_eq]
  exact and_congr_right fun _ => ⟨BitVec.eq_of_toFin_eq, congrArg BitVec.toFin⟩

theorem find?_eq_none :
    (ofForms forms).find? w = none ↔ ∀ f ∈ forms, f.template.admits w = false := by
  rw [find?, List.find?_eq_none]
  constructor
  · intro h f hf
    refine Bool.eq_false_iff.2 fun ha => ?_
    exact h f (mem_group.2 ⟨hf, Template.lead_of_admits ha⟩) ha
  · intro h f hf
    rw [h f (mem_group.1 hf).1]
    exact Bool.false_ne_true

theorem of_find?_eq_some {f : Form} (h : (ofForms forms).find? w = some f) :
    f ∈ forms ∧ f.template.admits w = true ∧
      ∀ g ∈ forms, g.template.admits w = true → f.template.wildcards ≤ g.template.wildcards := by
  obtain ⟨ha, before, after, hsplit, hbefore⟩ := List.find?_eq_some_iff_append.1 h
  have hsorted := mostSpecificFirst_sorted
    (forms.filter (·.template.lead.toFin = (w.extractLsb' 12 4).toFin))
  rw [← group_eq, hsplit, List.pairwise_append, List.pairwise_cons] at hsorted
  have hf : f ∈ (ofForms forms).groups.get (w.extractLsb' 12 4) := by
    rw [hsplit]
    exact List.mem_append_right _ (List.mem_cons_self ..)
  refine ⟨(mem_group.1 hf).1, ha, ?_⟩
  -- what stands before `f` in its group does not admit the word, what stands behind is no more
  -- specific than `f`
  intro g hg hga
  have hmem : g ∈ before ++ f :: after := by
    rw [← hsplit]
    exact mem_group.2 ⟨hg, Template.lead_of_admits hga⟩
  rcases List.mem_append.1 hmem with hin | hin
  · exact absurd hga (by simpa using hbefore g hin)
  · rcases List.mem_cons.1 hin with rfl | hin
    · exact Nat.le_refl _
    · exact hsorted.2.1.1 g hin

end Table

namespace Form

/-- A form fits a word if no template that admits the word is more specific than its own. -/
def Fits (f : Form) (w : Word) : Prop :=
  f.template.admits w = true ∧
    ∀ g : Form, g.template.admits w = true → f.template.wildcards ≤ g.template.wildcards

theorem differ_of_ne {f g : Form} (hwild : f.template.wildcards = g.template.wildcards)
    (hne : f ≠ g) : f.template.differ g.template = true := by
  have hall : ∀ f ∈ all, ∀ g ∈ all, f.template.wildcards = g.template.wildcards → f ≠ g →
      f.template.differ g.template = true := by decide +kernel
  exact hall f (mem_all f) g (mem_all g) hwild hne

theorem Fits.unique {f g : Form} {w : Word} (hf : f.Fits w) (hg : g.Fits w) : f = g := by
  have hwild := Nat.le_antisymm (hf.2 g hg.1) (hg.2 f hf.1)
  by_cases h : f = g
  · exact h
  · have hadmits := Template.not_admits_of_differ (differ_of_ne hwild h) hf.1
    rw [hg.1] at hadmits
    cases hadmits

end Form

theorem decode_eq_ok_iff {w : Word} {op : Opcode} :
    decode w = .ok op ↔ op.word = w ∧ op.form.Fits w := by
  have hfits : ∀ {f : Form}, Table.standard.find? w = some f → f.Fits w := by
    intro f hf
    obtain ⟨-, ha, hmost⟩ := Table.of_find?_eq_some hf
    exact ⟨ha, fun g hg => hmost g (Form.mem_all g) hg⟩
  unfold decode Table.decode
  constructor
  · intro h
    split at h
    · next f hf =>
      obtain rfl := Except.ok.inj h
      exact ⟨rfl, hfits hf⟩
    · cases h
  · rintro ⟨rfl, hop⟩
    split
    · next f hf => rw [(hfits hf).unique hop]
    · next hnone =>
      have := Table.find?_eq_none.1 hnone op.form (Form.mem_all _)
      rw [hop.1] at this
      cases this

theorem decode_eq_error_iff {w : Word} {e : Fault} :
    decode w = .error e ↔ e = .unknownOpcode w ∧ ∀ f : Form, f.template.admits w = false := by
  have hnone : Table.standard.find? w = none ↔ ∀ f : Form, f.template.admits w = false :=
    Table.find?_eq_none.trans ⟨fun h f => h f (Form.mem_all f), fun h f _ => h f⟩
  rw [← hnone]
  unfold decode Table.decode
  constructor
  · intro h
    split at h
    · cases h
    · next hw => exact ⟨(Except.error.inj h).symm, hw⟩
  · rintro ⟨rfl, hw⟩
    rw [hw]

end ChipEight
