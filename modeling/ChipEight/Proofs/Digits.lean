import ChipEight.Proofs.Encoding

/-! Bytes and words are recovered from their nibbles and digits. What is read as a digit is a digit of either case. -/

namespace ChipEight

open Text

theorem infix_of_placeOf? {part whole : List Char} {i : Nat} (h : placeOf? part whole = some i) :
    part <:+: whole := by
  induction whole generalizing i with
  | nil =>
    obtain ⟨hempty, -⟩ := Option.ite_none_right_eq_some.1 h
    obtain rfl := List.isEmpty_iff.1 hempty
    exact List.nil_infix
  | cons c cs ih =>
    rw [placeOf?] at h
    split at h
    · next hprefix => exact (List.isPrefixOf_iff_prefix.1 hprefix).isInfix
    · obtain ⟨j, hj, -⟩ := Option.map_eq_some_iff.1 h
      exact (ih hj).trans (List.suffix_cons c cs).isInfix

namespace Text

theorem CaseRun.covers_iff {r : CaseRun} {n : Nat} :
    r.covers n = true ↔ r.first ≤ n ∧ n ≤ r.last ∧ (n - r.first) % r.step = 0 := by
  simp [covers, and_assoc]

theorem upperCase_cases (c : Char) :
    upperCase c = [c] ∨
      ∃ r ∈ caseRuns, r.covers c.toNat = true ∧ upperCase c = r.cased c.toNat := by
  cases hfind : caseRuns.find? (·.covers c.toNat) with
  | none => exact .inl (by rw [upperCase, hfind])
  | some r =>
    have hcovers := List.find?_some hfind
    exact .inr ⟨r, List.mem_of_find?_eq_some hfind, hcovers, by rw [upperCase, hfind]⟩

def smallLetters : CaseRun :=
  ⟨97, 122, 1, 65, []⟩

theorem CaseRun.apart :
    ∀ r ∈ caseRuns, r = smallLetters ∨ 70 < r.target ∨
      r.first = r.last ∧ ¬ r.cased r.first <:+: Nibble.digits := by
  decide +kernel

end Text

theorem Nibble.ofNat_not_mem_digits {n : Nat} (hn : 70 < n) : Char.ofNat n ∉ Nibble.digits := by
  have hbounds : ∀ c ∈ Nibble.digits, 0 < c.toNat ∧ c.toNat ≤ 70 := by
    simp [Nibble.digits]
  -- What is no character at all becomes the first of all characters.
  have hcode : (Char.ofNat n).toNat = n ∨ (Char.ofNat n).toNat = 0 := by
    by_cases hvalid : n.isValidChar
    · exact .inl (by rw [Char.ofNat, dif_pos hvalid]; rfl)
    · exact .inr (by rw [Char.ofNat, dif_neg hvalid]; rfl)
  intro hmem
  have := hbounds _ hmem
  omega

def Nibble.characters : List Char :=
  Nibble.digits ++ ['a', 'b', 'c', 'd', 'e', 'f']

theorem mem_characters_of_smallLetters {c : Char} (hc : smallLetters.covers c.toNat = true)
    (hcased : smallLetters.cased c.toNat <:+: Nibble.digits) : c ∈ Nibble.characters := by
  have hletters : ∀ k < 26, Char.ofNat (65 + k) ∈ Nibble.digits →
      Char.ofNat (97 + k) ∈ Nibble.characters := by
    decide
  obtain ⟨hfirst, hlast, -⟩ : 97 ≤ c.toNat ∧ c.toNat ≤ 122 ∧ _ := CaseRun.covers_iff.1 hc
  have hmem := hletters (c.toNat - 97) (by omega) (hcased.subset List.mem_cons_self)
  rwa [Nat.add_sub_cancel' hfirst, Char.ofNat_toNat] at hmem

theorem mem_characters_of_upperCase {c : Char} (h : upperCase c <:+: Nibble.digits) :
    c ∈ Nibble.characters := by
  -- A character is its own upper case or lies in a run; of the runs, only the small letters meet the digits.
  obtain heq | ⟨r, hr, hcovers, heq⟩ := upperCase_cases c
  · rw [heq] at h
    exact List.mem_append_left _ (h.subset List.mem_cons_self)
  · rw [heq] at h
    obtain rfl | hbeyond | ⟨hsingle, hnowhere⟩ := CaseRun.apart r hr
    · exact mem_characters_of_smallLetters hcovers h
    · exact absurd (h.subset List.mem_cons_self) (Nibble.ofNat_not_mem_digits (by omega))
    · have hcode : c.toNat = r.first := by
        have := CaseRun.covers_iff.1 hcovers
        omega
      rw [hcode] at h
      exact absurd h hnowhere

/-- A ligature becomes two digits, which do not stand next to each other among the digits. -/
example : upperCase (Char.ofNat 64256) = ['F', 'F'] ∧ placeOf? ['F', 'F'] Nibble.digits = none := by
  decide

theorem placeOf?_digit (d : Nibble) : placeOf? [d.digit] Nibble.digits = some d.toNat := by
  revert d
  decide

theorem exists_digit_of_mem_characters {c : Char} (hc : c ∈ Nibble.characters) :
    ∃ d : Nibble, c = d.digit ∨ c = lowerDigit d.toNat := by
  have hall : Nibble.characters =
      (List.range 16).map upperDigit ++ (List.range 6).map fun k => lowerDigit (10 + k) := rfl
  rw [hall, List.mem_append, List.mem_map, List.mem_map] at hc
  obtain ⟨k, hk, rfl⟩ | ⟨k, hk, rfl⟩ := hc
  · rw [List.mem_range] at hk
    refine ⟨BitVec.ofNat 4 k, .inl ?_⟩
    rw [Nibble.digit, BitVec.toNat_ofNat, Nat.mod_eq_of_lt hk]
  · rw [List.mem_range] at hk
    refine ⟨BitVec.ofNat 4 (10 + k), .inr ?_⟩
    rw [BitVec.toNat_ofNat, Nat.mod_eq_of_lt (by omega)]

theorem Nibble.upperCase_digit (d : Nibble) : upperCase d.digit = [d.digit] := by
  revert d
  decide

theorem Nibble.upperCase_lowerDigit (d : Nibble) : upperCase (lowerDigit d.toNat) = [d.digit] := by
  revert d
  decide

theorem exists_value_of_mem_characters {c : Char} (hc : c ∈ Nibble.characters) :
    ∃ d : Nibble, Nibble.ofDigit? c = some d ∧ upperCase c = [d.digit] := by
  obtain ⟨d, rfl | rfl⟩ := exists_digit_of_mem_characters hc
  · exact ⟨d, d.ofDigit?_digit, d.upperCase_digit⟩
  · refine ⟨d, ?_, d.upperCase_lowerDigit⟩
    rw [ofDigit?_lowerDigit d.isLt, BitVec.ofNat_toNat, BitVec.setWidth_eq]

theorem readHexDigit_of_upperCase {c : Char} {d : Nibble} (hc : upperCase c = [d.digit]) :
    readHexDigit (String.singleton c) = .ok d := by
  simp only [readHexDigit, String.toList_singleton, hc, placeOf?_digit, BitVec.ofNat_toNat,
    BitVec.setWidth_eq]

theorem readHexDigit_of_no_character {text : String}
    (h : text ∉ Nibble.characters.map String.singleton) :
    readHexDigit text = .error (.outOfRange (.hexDigit text)) := by
  unfold readHexDigit
  split
  · next c hc =>
    cases hplace : placeOf? (upperCase c) Nibble.digits with
    | none => rfl
    | some i =>
      have hmem := mem_characters_of_upperCase (infix_of_placeOf? hplace)
      refine absurd (List.mem_map.2 ⟨c, hmem, ?_⟩) h
      rw [← String.toList_inj, hc, String.toList_singleton]
  · rfl

theorem hexDigit_toNat (d : Nibble) : hexDigit d.toNat = .ok d.digit := by
  rw [hexDigit, fit_toNat, ok_bind]
  rfl

namespace Byte

theorem high_append_low (b : Byte) : b.high ++ b.low = b := by
  revert b
  decide

theorem toNat_eq_nibbles (b : Byte) : 16 * b.high.toNat + b.low.toNat = b.toNat := by
  revert b
  decide

theorem high_append (h l : Nibble) : high (h ++ l) = h :=
  BitVec.extractLsb'_append_eq_left

theorem low_append (h l : Nibble) : low (h ++ l) = l :=
  BitVec.extractLsb'_append_eq_right

end Byte

theorem splitByte_toNat (b : Byte) : splitByte b.toNat = .ok (b.high, b.low) := by
  rw [splitByte, fit_toNat, ok_bind]
  rfl

theorem joinNibbles_toNat (h l : Nibble) : joinNibbles h.toNat l.toNat = .ok (h ++ l) := by
  rw [joinNibbles, fit_toNat, ok_bind, fit_toNat, ok_bind]
  rfl

theorem splitWord_toNat (w : Word) : splitWord w.toNat = .ok w.nibbles := by
  rw [splitWord, fit_toNat, ok_bind]
  rfl

theorem mapM_hexDigit (ds : List Nibble) :
    ds.mapM (fun d => hexDigit d.toNat) = .ok (ds.map Nibble.digit) := by
  induction ds with
  | nil => rfl
  | cons d ds ih =>
    rw [List.mapM_cons, hexDigit_toNat, ok_bind, ih]
    rfl

theorem wordDigits_toNat (w : Word) : wordDigits w.toNat = .ok w.text := by
  rw [wordDigits, splitWord_toNat, ok_bind, mapM_hexDigit]
  rfl

theorem Word.ofDigits_nibbles (w : Word) : ofDigits 16 (w.nibbles.map BitVec.toNat) = w.toNat := by
  have hread := w.readNumeral?_text
  rw [text, String.toList_ofList, readNumeral?_digits] at hread
  exact Option.some.inj hread

theorem mapM_readHexDigit (ds : List Nibble) :
    (ds.map Nibble.digit).mapM (fun c => readHexDigit (String.singleton c)) = .ok ds := by
  induction ds with
  | nil => rfl
  | cons d ds ih =>
    rw [List.map_cons, List.mapM_cons, readHexDigit_of_upperCase d.upperCase_digit, ok_bind, ih]
    rfl

def SplitsBack (v : Int) : Prop :=
  if 0 ≤ v ∧ v ≤ 255 then
    ∃ h l b, splitByte v = .ok (h, l) ∧ (16 * h.toNat + l.toNat : Int) = v ∧
      joinNibbles h.toNat l.toNat = .ok b ∧ (b.toNat : Int) = v
  else splitByte v = .error (.outOfRange (.byte v))

def JoinsBack (a b : Int) : Prop :=
  if 0 ≤ a ∧ a ≤ 15 then
    if 0 ≤ b ∧ b ≤ 15 then
      ∃ c h l, joinNibbles a b = .ok c ∧ splitByte c.toNat = .ok (h, l) ∧ (h.toNat : Int) = a ∧
        (l.toNat : Int) = b
    else joinNibbles a b = .error (.outOfRange (.nibble b))
  else joinNibbles a b = .error (.outOfRange (.nibble a))

/-- A word is spelled by four characters whose values stand for it, and no other number is. -/
def SpellsBack (v : Int) : Prop :=
  if 0 ≤ v ∧ v ≤ 65535 then
    ∃ text ds, wordDigits v = .ok text ∧ text.length = 4 ∧
      text.toList.mapM (fun c => readHexDigit (String.singleton c)) = .ok ds ∧
      (ofDigits 16 (ds.map BitVec.toNat) : Int) = v
  else wordDigits v = .error (.outOfRange (.word v))

/-- A digit of either case is read as its value, which is written as the digit in upper case. No other text is. -/
def ReadsBack (text : String) : Prop :=
  if text ∈ Nibble.characters.map String.singleton then
    ∃ c d u, text = String.singleton c ∧ Nibble.ofDigit? c = some d ∧ readHexDigit text = .ok d ∧
      hexDigit d.toNat = .ok u ∧ upperCase c = [u]
  else readHexDigit text = .error (.outOfRange (.hexDigit text))

theorem splitsBack (v : Int) : SplitsBack v := by
  unfold SplitsBack
  obtain ⟨b, rfl⟩ | hv := exists_toNat_eq_or_unfit 8 v
  · have := b.isLt
    rw [if_pos (by omega)]
    refine ⟨_, _, b, splitByte_toNat b, mod_cast Byte.toNat_eq_nibbles b, ?_, rfl⟩
    rw [joinNibbles_toNat, Byte.high_append_low]
  · have := fit?_eq_none_iff.1 hv
    rw [if_neg (by omega), splitByte, fit_of_unfit hv, error_bind]

theorem joinsBack (a b : Int) : JoinsBack a b := by
  unfold JoinsBack
  obtain ⟨h, rfl⟩ | ha := exists_toNat_eq_or_unfit 4 a
  · have := h.isLt
    rw [if_pos (by omega)]
    obtain ⟨l, rfl⟩ | hb := exists_toNat_eq_or_unfit 4 b
    · have := l.isLt
      rw [if_pos (by omega)]
      refine ⟨h ++ l, h, l, joinNibbles_toNat h l, ?_, rfl, rfl⟩
      rw [splitByte_toNat, Byte.high_append, Byte.low_append]
    · have := fit?_eq_none_iff.1 hb
      rw [if_neg (by omega), joinNibbles, fit_toNat, ok_bind, fit_of_unfit hb, error_bind]
  · have := fit?_eq_none_iff.1 ha
    rw [if_neg (by omega), joinNibbles, fit_of_unfit ha, error_bind]

theorem spellsBack (v : Int) : SpellsBack v := by
  unfold SpellsBack
  rcases exists_word_or_outside v with ⟨w, rfl⟩ | hv
  · have := w.isLt
    rw [if_pos (by omega)]
    refine ⟨Word.text w, Word.nibbles w, wordDigits_toNat w, ?_, ?_, ?_⟩
    · rw [← String.length_toList, Word.toList_text]
      rfl
    · rw [Word.toList_text]
      exact mapM_readHexDigit (Word.nibbles w)
    · rw [Word.ofDigits_nibbles]
  · rw [if_neg (by omega), wordDigits, splitWord, fit_of_outside hv, error_bind, error_bind]

theorem readsBack (text : String) : ReadsBack text := by
  unfold ReadsBack
  split
  · next h =>
    obtain ⟨c, hc, rfl⟩ := List.mem_map.1 h
    obtain ⟨d, hvalue, hupper⟩ := exists_value_of_mem_characters hc
    exact ⟨c, d, d.digit, rfl, hvalue, readHexDigit_of_upperCase hupper, hexDigit_toNat d, hupper⟩
  · next h => exact readHexDigit_of_no_character h

/-- Whatever is taken apart, put together, spelled or read is recovered from the result. All else is refused. -/
theorem nibbles_and_digits_recovered :
    (∀ v, SplitsBack v) ∧ (∀ a b, JoinsBack a b) ∧ (∀ v, SpellsBack v) ∧ ∀ text, ReadsBack text :=
  ⟨splitsBack, joinsBack, spellsBack, readsBack⟩

end ChipEight
