import ChipEight.Proofs.Components
import ChipEight.Proofs.Counting

/-! Decoding told from the texts of words and templates. What it comes to does not depend on the order in
which the forms are given. -/

namespace ChipEight

theorem Nibble.digit_injective {d e : Nibble} (h : d.digit = e.digit) : d = e := by
  have hd := Nibble.ofDigit?_digit d
  rw [h, Nibble.ofDigit?_digit] at hd
  exact (Option.some.inj hd).symm

def Template.letters : List Char := ['N', 'X', 'Y']

theorem Nibble.digit_not_letter (d : Nibble) : d.digit ∉ Template.letters := by
  revert d
  decide

namespace Place

theorem char_mem_letters {p : Place} (hp : p.isWild = true) : p.char ∈ Template.letters := by
  cases p with
  | digit d => cases hp
  | x | y | n => decide

theorem admits_iff {p : Place} {d : Nibble} :
    p.admits d = true ↔ (p.char ∉ Template.letters → p.char = d.digit) := by
  cases p with
  | digit e =>
    rw [admits, beq_iff_eq]
    exact ⟨fun h _ => congrArg Nibble.digit h,
      fun h => Nibble.digit_injective (h e.digit_not_letter)⟩
  | x | y | n => exact ⟨fun _ h => absurd (char_mem_letters rfl) h, fun _ => rfl⟩

end Place

theorem Word.toList_text (w : Word) :
    w.text.toList = [Nibble.digit (w.extractLsb' 12 4), Nibble.digit (w.extractLsb' 8 4),
      Nibble.digit (w.extractLsb' 4 4), Nibble.digit (w.extractLsb' 0 4)] := by
  rw [Word.text, String.toList_ofList]
  rfl

namespace Template

theorem toList_text (t : Template) :
    t.text.toList = [t.lead.digit, t.second.char, t.third.char, t.fourth.char] := by
  rw [text, String.toList_ofList]
  rfl

def Matches (t : Template) (digits : String) : Prop :=
  ∀ (i : Nat) (c : Char), t.text.toList[i]? = some c → c ∉ letters → digits.toList[i]? = some c

theorem matches_iff {t : Template} {w : Word} : t.Matches w.text ↔ t.admits w = true := by
  have hlead : t.lead == w.extractLsb' 12 4 ↔
      (t.lead.digit ∉ letters → t.lead.digit = Nibble.digit (w.extractLsb' 12 4)) :=
    Place.admits_iff (p := .digit t.lead)
  simp only [admits, Bool.and_eq_true, hlead, Place.admits_iff, Matches, toList_text,
    Word.toList_text]
  constructor
  · intro h
    have hplace : ∀ {c d : Char}, (c ∉ letters → some d = some c) → c ∉ letters → c = d :=
      fun h hc => (Option.some.inj (h hc)).symm
    exact ⟨⟨⟨hplace (h 0 _ rfl), hplace (h 1 _ rfl)⟩, hplace (h 2 _ rfl)⟩, hplace (h 3 _ rfl)⟩
  · rintro ⟨⟨⟨hlead, hsecond⟩, hthird⟩, hfourth⟩ i c hi hc
    rcases i with _ | _ | _ | _ | i
    · cases hi
      exact congrArg some (hlead hc).symm
    · cases hi
      exact congrArg some (hsecond hc).symm
    · cases hi
      exact congrArg some (hthird hc).symm
    · cases hi
      exact congrArg some (hfourth hc).symm
    · cases hi

end Template

theorem Form.Fits.wildcards_lt {f g : Form} {w : Word} (hf : f.Fits w) (hne : g ≠ f)
    (hg : g.template.admits w = true) : f.template.wildcards < g.template.wildcards := by
  refine Nat.lt_of_le_of_ne (hf.2 g hg) fun hwild => ?_
  have hadmits := Template.not_admits_of_differ (differ_of_ne hwild hne.symm) hf.1
  rw [hg] at hadmits
  cases hadmits

/-- What the decoding of an integer comes to: one that is no word is out of range, a word whose digits
match no template is unknown, and any other has the form with the most specific template. -/
inductive Decoded (v : Int) : Except Fault Opcode → Prop
  | outside (hv : v < 0 ∨ 65535 < v) : Decoded v (.error (.outOfRange (.word v)))
  | unknown {w : Word} (hw : (w.toNat : Int) = v)
      (hnone : ∀ f : Form, ¬ f.template.Matches w.text) : Decoded v (.error (.unknownOpcode w))
  | known {w : Word} {f : Form} (hw : (w.toNat : Int) = v) (hmatch : f.template.Matches w.text)
      (hmost : ∀ g : Form, g ≠ f → g.template.Matches w.text →
        f.template.wildcards < g.template.wildcards) : Decoded v (.ok ⟨w, f⟩)

theorem Decoded.unique {v : Int} {r r' : Except Fault Opcode} (h : Decoded v r)
    (h' : Decoded v r') : r = r' := by
  have hinside : ∀ {w : Word}, (w.toNat : Int) = v → ¬ (v < 0 ∨ 65535 < v) := by
    intro w hw
    have hlt : w.toNat < 65536 := w.isLt
    omega
  have hword : ∀ {w w' : Word}, (w.toNat : Int) = v → (w'.toNat : Int) = v → w = w' :=
    fun hw hw' => BitVec.eq_of_toNat_eq (Int.ofNat.inj (hw.trans hw'.symm))
  cases h with
  | outside hv =>
    cases h' with
    | outside _ => rfl
    | unknown hw' _ | known hw' _ _ => exact absurd hv (hinside hw')
  | unknown hw hnone =>
    cases h' with
    | outside hv => exact absurd hv (hinside hw)
    | unknown hw' _ => rw [hword hw hw']
    | known hw' hmatch _ =>
      obtain rfl := hword hw hw'
      exact absurd hmatch (hnone _)
  | @known w f hw hmatch hmost =>
    cases h' with
    | outside hv => exact absurd hv (hinside hw)
    | unknown hw' hnone =>
      obtain rfl := hword hw hw'
      exact absurd hmatch (hnone _)
    | @known w' g hw' hmatch' hmost' =>
      obtain rfl := hword hw hw'
      -- of two different forms each would be more specific than the other
      by_cases hfg : f = g
      · rw [hfg]
      · exact absurd (hmost g (Ne.symm hfg) hmatch') (Nat.lt_asymm (hmost' f hfg hmatch))

theorem fit_of_outside {v : Int} (hv : v < 0 ∨ 65535 < v) :
    fit 16 (.word v) v = .error (.outOfRange (.word v)) := by
  have hnone : fit? 16 v = none := by
    rw [fit?_eq_none_iff]
    omega
  rw [fit, hnone]

theorem exists_word_or_outside (v : Int) :
    (∃ w : Word, (w.toNat : Int) = v) ∨ v < 0 ∨ 65535 < v := by
  obtain ⟨w, rfl⟩ | hv := exists_toNat_eq_or_unfit 16 v
  · exact .inl ⟨w, rfl⟩
  · rw [fit?_eq_none_iff] at hv
    omega

namespace Table

variable {forms : List Form}

theorem decodeInt_decoded (hforms : forms.Perm Form.all) (v : Int) :
    Decoded v ((ofForms forms).decodeInt v) := by
  have hmem : ∀ f : Form, f ∈ forms := fun f => hforms.mem_iff.2 (Form.mem_all f)
  rcases exists_word_or_outside v with ⟨w, rfl⟩ | hv
  · rw [decodeInt, fit_toNat, ok_bind, decode]
    cases hfind : (ofForms forms).find? w with
    | none =>
      refine .unknown rfl fun f hf => ?_
      have hadmits := find?_eq_none.1 hfind f (hmem f)
      rw [Template.matches_iff.1 hf] at hadmits
      cases hadmits
    | some f =>
      obtain ⟨-, hadmits, hleast⟩ := of_find?_eq_some hfind
      have hfits : f.Fits w := ⟨hadmits, fun g hg => hleast g (hmem g) hg⟩
      exact .known rfl (Template.matches_iff.2 hadmits) fun g hne hg =>
        hfits.wildcards_lt hne (Template.matches_iff.1 hg)
  · rw [decodeInt, fit_of_outside hv, error_bind]
    exact .outside hv

def refusesWord : Except Fault Opcode → Bool
  | .error (.unknownOpcode _) => true
  | _ => false

theorem refusesWord_of_decoded {w : Word} {r : Except Fault Opcode} (hr : Decoded w.toNat r) :
    refusesWord r = !Form.apart.any fun t => t.admits w := by
  have hlt : w.toNat < 65536 := w.isLt
  cases hr with
  | outside hv => omega
  | unknown hw hnone =>
    obtain rfl := BitVec.eq_of_toNat_eq (Int.ofNat.inj hw.symm)
    have hapart : ¬ (Form.apart.any fun t => t.admits w) = true := by
      rw [Form.any_apart]
      rintro ⟨f, hf⟩
      exact hnone f (Template.matches_iff.2 hf)
    rw [Bool.eq_false_iff.2 hapart]
    rfl
  | known hw hmatch _ =>
    obtain rfl := BitVec.eq_of_toNat_eq (Int.ofNat.inj hw.symm)
    rw [Form.any_apart.2 ⟨_, Template.matches_iff.1 hmatch⟩]
    rfl

theorem count_refusesWord (hforms : forms.Perm Form.all) :
    ((List.range 65536).countP fun v : Nat => refusesWord ((ofForms forms).decodeInt v)) = 13648 := by
  have hunknown := Form.count_unknown
  rw [Word.all, List.countP_map] at hunknown
  refine (List.countP_congr fun v hv => ?_).trans hunknown
  have hlt : v < 65536 := List.mem_range.1 hv
  have hdecoded := decodeInt_decoded hforms (BitVec.ofNat 16 v).toNat
  rw [Function.comp_apply, ← refusesWord_of_decoded hdecoded, BitVec.toNat_ofNat,
    Nat.mod_eq_of_lt hlt]

/-- From whatever order of the forms a table is built, an integer is decoded to the form whose template
is the most specific of those that its digits match. -/
theorem decodeInt_of_perm (hforms : forms.Perm Form.all) :
    (∀ v r, (ofForms forms).decodeInt v = r ↔ Decoded v r) ∧
      (∀ v, (ofForms forms).decodeInt v = ChipEight.decodeInt v) ∧
      ((List.range 65536).countP fun v : Nat => refusesWord ((ofForms forms).decodeInt v)) = 13648 := by
  refine ⟨fun v r => ⟨?_, ?_⟩, fun v => ?_, count_refusesWord hforms⟩
  · rintro rfl
    exact decodeInt_decoded hforms v
  · exact fun hr => (decodeInt_decoded hforms v).unique hr
  · exact (decodeInt_decoded hforms v).unique (decodeInt_decoded (.refl _) v)

theorem decodeInt_of_reverse : Form.all.reverse.Perm Form.all ∧
    (ofForms Form.all.reverse).decodeInt 0x00E0 = .ok ⟨0x00E0, .clearScreen⟩ := by
  have hperm := List.reverse_perm Form.all
  refine ⟨hperm, ?_⟩
  rw [(decodeInt_of_perm hperm).2.1]
  rfl

end Table

end ChipEight
