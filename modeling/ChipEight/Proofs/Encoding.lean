import Mathlib.Data.List.Forall2
import ChipEight.Proofs.Numerals
import ChipEight.Proofs.Specificity

/-! Templates as codes. Digits put in place of the letters of a template spell a word, and decoding the
word gives back the form and the digits. -/

namespace ChipEight

open Text

namespace Word

theorem nibbles_append (a b c d : Nibble) : nibbles (a ++ b ++ c ++ d) = [a, b, c, d] := by
  simp only [nibbles, List.cons.injEq, and_true]
  refine ⟨?_, ?_, ?_, ?_⟩ <;> ext i hi <;> simp <;> grind

theorem readNumeral?_text (w : Word) : readNumeral? 16 w.text.toList = some w.toNat := by
  have hw : w.toNat < 65536 := w.isLt
  rw [text, String.toList_ofList, readNumeral?_digits]
  simp only [nibbles, List.map_cons, List.map_nil, BitVec.extractLsb'_toNat, ofDigits,
    List.foldl_cons, List.foldl_nil, Nat.shiftRight_eq_div_pow, Option.some.injEq]
  omega

end Word

def Template.spell : List Char → List Nibble → List Char
  | [], _ => []
  | c :: cs, [] => c :: spell cs []
  | c :: cs, d :: ds =>
    if c ∈ letters then d.digit :: spell cs ds else c :: spell cs (d :: ds)

namespace Place

open Template (spell)

def picked : List Place → List Nibble → List Nibble
  | p :: ps, d :: ds => if p.isWild then d :: picked ps ds else picked ps ds
  | _, _ => []

theorem spell_digit (d : Nibble) (cs : List Char) (ds : List Nibble) :
    spell (d.digit :: cs) ds = d.digit :: spell cs ds := by
  cases ds with
  | nil => rw [spell]
  | cons e ds => rw [spell, if_neg d.digit_not_letter]

theorem spell_letter {p : Place} (hp : p.isWild = true) (cs : List Char) (d : Nibble)
    (ds : List Nibble) : spell (p.char :: cs) (d :: ds) = d.digit :: spell cs ds := by
  rw [spell, if_pos (char_mem_letters hp)]

theorem spell_picked {ps : List Place} {ds : List Nibble}
    (h : List.Forall₂ (fun p d => p.admits d = true) ps ds) :
    spell (ps.map char) (picked ps ds) = ds.map Nibble.digit := by
  induction h with
  | nil => rfl
  | @cons p d ps ds hp _ ih =>
    rw [List.map_cons, List.map_cons, ← ih, picked]
    cases hwild : p.isWild with
    | true => rw [if_pos rfl, spell_letter hwild]
    | false =>
      cases p with
      | digit e =>
        obtain rfl : e = d := eq_of_beq hp
        exact spell_digit e ..
      | x | y | n => cases hwild

theorem exists_picked (ps : List Place) {digits : List Nibble}
    (h : digits.length = ps.countP isWild) :
    ∃ ds, List.Forall₂ (fun p d => p.admits d = true) ps ds ∧ picked ps ds = digits := by
  induction ps generalizing digits with
  | nil =>
    rw [List.countP_nil, List.length_eq_zero_iff] at h
    exact ⟨[], .nil, h.symm⟩
  | cons p ps ih =>
    cases hwild : p.isWild with
    | true =>
      rw [List.countP_cons_of_pos hwild] at h
      obtain ⟨d, digits, rfl⟩ := List.exists_cons_of_length_eq_add_one h
      obtain ⟨ds, hadmits, hpicked⟩ := ih (Nat.succ.inj h)
      have hp : p.admits d = true := by
        cases p with
        | digit e => cases hwild
        | x | y | n => rfl
      exact ⟨d :: ds, .cons hp hadmits, by rw [picked, if_pos hwild, hpicked]⟩
    | false =>
      rw [List.countP_cons_of_neg (by rw [hwild]; exact Bool.false_ne_true)] at h
      obtain ⟨ds, hadmits, hpicked⟩ := ih h
      cases p with
      | digit e => exact ⟨e :: ds, .cons (beq_self_eq_true e) hadmits, hpicked⟩
      | x | y | n => cases hwild

end Place

namespace Template

def picked (t : Template) (w : Word) : List Nibble :=
  Place.picked t.places w.nibbles

theorem admits_iff_places {t : Template} {w : Word} :
    t.admits w = true ↔ List.Forall₂ (fun p d => p.admits d = true) t.places w.nibbles := by
  simp only [admits, places, Word.nibbles, Bool.and_eq_true, List.forall₂_cons, List.Forall₂.nil,
    and_true, and_assoc]
  rfl

theorem spell_picked {t : Template} {w : Word} (h : t.admits w = true) :
    spell t.text.toList (t.picked w) = w.text.toList := by
  rw [text, Word.text, String.toList_ofList, String.toList_ofList]
  exact Place.spell_picked (admits_iff_places.1 h)

theorem exists_picked (t : Template) {digits : List Nibble} (h : digits.length = t.wildcards) :
    ∃ w, t.admits w = true ∧ t.picked w = digits := by
  obtain ⟨ds, hadmits, hpicked⟩ := Place.exists_picked t.places h
  obtain ⟨a, b, c, d, rfl⟩ : ∃ a b c d, ds = [a, b, c, d] := by
    match ds, hadmits.length_eq with
    | [a, b, c, d], _ => exact ⟨a, b, c, d, rfl⟩
  refine ⟨a ++ b ++ c ++ d, ?_, ?_⟩
  · rw [admits_iff_places, Word.nibbles_append]
    exact hadmits
  · rw [picked, Word.nibbles_append]
    exact hpicked

end Template

namespace Form

def spelled (f : Form) (digits : List Nibble) : List Char :=
  Template.spell f.template.text.toList digits

def encode (f : Form) (digits : List Nibble) : Option Nat :=
  readNumeral? 16 (f.spelled digits)

theorem encode_picked {f : Form} {w : Word} (h : f.template.admits w = true) :
    f.encode (f.template.picked w) = some w.toNat := by
  rw [encode, spelled, Template.spell_picked h, Word.readNumeral?_text]

/-- The form as which an encoding is decoded: two calls of routines are instructions of their own. -/
def recognised (f : Form) (digits : List Nibble) : Form :=
  if f = .callMachineRoutine ∧ digits = [0x0, 0xE, 0x0] then .clearScreen
  else if f = .callMachineRoutine ∧ digits = [0x0, 0xE, 0xE] then .ret
  else f

theorem differ_or_wildcards_le {f : Form} (hf : f ≠ .callMachineRoutine) (g : Form) :
    f.template.differ g.template = true ∨ f.template.wildcards ≤ g.template.wildcards := by
  have hall : ∀ f ∈ all, ∀ g ∈ all, f ≠ .callMachineRoutine →
      f.template.differ g.template = true ∨ f.template.wildcards ≤ g.template.wildcards := by
    decide +kernel
  exact hall f (mem_all f) g (mem_all g) hf

theorem fits_of_ne {f : Form} {w : Word} (hf : f ≠ .callMachineRoutine)
    (h : f.template.admits w = true) : f.Fits w := by
  refine ⟨h, fun g hg => ?_⟩
  rcases differ_or_wildcards_le hf g with hdiffer | hle
  · rw [Template.not_admits_of_differ hdiffer h] at hg
    cases hg
  · exact hle

theorem differ_of_not_routine {g : Form} (hclear : g ≠ .clearScreen) (hret : g ≠ .ret)
    (hroutine : g ≠ .callMachineRoutine) :
    (template .callMachineRoutine).differ g.template = true := by
  cases g <;> first | contradiction | decide

theorem admits_iff_picked {g : Form} {w : Word} {a b c : Nibble}
    (hg : g.template = ⟨0, .digit a, .digit b, .digit c⟩)
    (h : (template .callMachineRoutine).admits w = true) :
    g.template.admits w = true ↔ (template .callMachineRoutine).picked w = [a, b, c] := by
  have hpicked : (template .callMachineRoutine).picked w =
      [w.extractLsb' 8 4, w.extractLsb' 4 4, w.extractLsb' 0 4] := rfl
  have hlead : (0 : Nibble) = w.extractLsb' 12 4 := Template.lead_of_admits h
  simp only [hg, hpicked, Template.admits, Place.admits, ← hlead, Bool.and_eq_true, beq_iff_eq,
    List.cons.injEq, and_true, true_and, and_assoc, @eq_comm Nibble a, @eq_comm Nibble b,
    @eq_comm Nibble c]

theorem fits_recognised {f : Form} {w : Word} (h : f.template.admits w = true) :
    (f.recognised (f.template.picked w)).Fits w := by
  unfold recognised
  by_cases hf : f = .callMachineRoutine
  · subst hf
    have hclear := admits_iff_picked (g := .clearScreen) rfl h
    have hret := admits_iff_picked (g := .ret) rfl h
    split
    · next hdigits => exact fits_of_ne (by decide) (hclear.2 hdigits.2)
    · next hnot =>
      split
      · next hdigits => exact fits_of_ne (by decide) (hret.2 hdigits.2)
      -- Of the other templates, none admits a word that begins as the call of a routine does.
      · next hnot' =>
        refine ⟨h, fun g hg => ?_⟩
        have hne : g ≠ .clearScreen := by
          rintro rfl
          exact hnot ⟨rfl, hclear.1 hg⟩
        have hne' : g ≠ .ret := by
          rintro rfl
          exact hnot' ⟨rfl, hret.1 hg⟩
        by_cases hroutine : g = .callMachineRoutine
        · rw [hroutine]
        · rw [Template.not_admits_of_differ (differ_of_not_routine hne hne' hroutine) h] at hg
          cases hg
  · rw [if_neg (fun hand => hf hand.1), if_neg (fun hand => hf hand.1)]
    exact fits_of_ne hf h

end Form

namespace Opcode

def operandDigits (op : Opcode) : List Nibble :=
  let letters := op.form.template.text.toList
  (if 'X' ∈ letters then [op.x] else []) ++ (if 'Y' ∈ letters then [op.y] else []) ++
    match letters.count 'N' with
    | 3 => [op.nnn.extractLsb' 8 4, op.nnn.extractLsb' 4 4, op.nnn.extractLsb' 0 4]
    | 2 => [op.nn.high, op.nn.low]
    | 1 => [op.n]
    | _ => []

theorem nn_toNat (op : Opcode) : op.nn.toNat = ofDigits 16 [op.y.toNat, op.n.toNat] := by
  simp only [nn, y, n, BitVec.extractLsb'_toNat, Nat.shiftRight_eq_div_pow, ofDigits,
    List.foldl_cons, List.foldl_nil]
  omega

theorem nnn_toNat (op : Opcode) :
    op.nnn.toNat = ofDigits 16 [op.x.toNat, op.y.toNat, op.n.toNat] := by
  simp only [nnn, x, y, n, BitVec.extractLsb'_toNat, Nat.shiftRight_eq_div_pow, ofDigits,
    List.foldl_cons, List.foldl_nil]
  omega

theorem nn_digits (op : Opcode) : op.nn.high = op.y ∧ op.nn.low = op.n := by
  simp only [nn, y, n, Byte.high, Byte.low, BitVec.toNat_eq, BitVec.extractLsb'_toNat,
    Nat.shiftRight_eq_div_pow]
  omega

theorem nnn_digits (op : Opcode) :
    op.nnn.extractLsb' 8 4 = op.x ∧ op.nnn.extractLsb' 4 4 = op.y ∧
      op.nnn.extractLsb' 0 4 = op.n := by
  simp only [nnn, x, y, n, BitVec.toNat_eq, BitVec.extractLsb'_toNat, Nat.shiftRight_eq_div_pow]
  omega

theorem operandDigits_eq (op : Opcode) : op.operandDigits = op.form.template.picked op.word := by
  obtain ⟨hhigh, hlow⟩ := op.nn_digits
  obtain ⟨hfirst, hsecond, hthird⟩ := op.nnn_digits
  obtain ⟨w, f⟩ := op
  unfold operandDigits
  rw [hhigh, hlow, hfirst, hsecond, hthird, Template.toList_text]
  cases f <;> rfl

end Opcode

/-- What comes of digits that are put in place of the letters of a form's template: the operands are the
digits that are spelled, alone or with those behind them. -/
structure Form.RoundTrip (f : Form) (digits : List Nibble) (op : Opcode) : Prop where
  encode_eq : f.encode digits = some op.word.toNat
  decode_eq : decodeInt op.word.toNat = .ok op
  form_eq : op.form = f.recognised digits
  spelled_eq : f.spelled digits =
    [f.template.lead.digit, op.x.digit, op.y.digit, op.n.digit]
  nn_eq : readNumeral? 16 ((f.spelled digits).drop 2) = some op.nn.toNat
  nnn_eq : readNumeral? 16 ((f.spelled digits).drop 1) = some op.nnn.toNat

theorem decodeInt_eq_ok_iff {v : Int} {op : Opcode} :
    decodeInt v = .ok op ↔ (op.word.toNat : Int) = v ∧ op.form.Fits op.word := by
  rcases exists_word_or_outside v with ⟨w, rfl⟩ | hv
  · have hword : (op.word.toNat : Int) = w.toNat ↔ op.word = w :=
      ⟨fun h => BitVec.eq_of_toNat_eq (Int.ofNat.inj h), fun h => by rw [h]⟩
    rw [decodeInt, Table.decodeInt, fit_toNat, ok_bind]
    show decode w = .ok op ↔ _
    rw [decode_eq_ok_iff, hword]
    constructor
    · rintro ⟨rfl, hfits⟩
      exact ⟨rfl, hfits⟩
    · rintro ⟨rfl, hfits⟩
      exact ⟨rfl, hfits⟩
  · have hlt : op.word.toNat < 65536 := op.word.isLt
    rw [decodeInt, Table.decodeInt, fit_of_outside hv, error_bind]
    exact ⟨fun h => (by cases h), fun h => by omega⟩

theorem Form.exists_roundTrip {f : Form} {digits : List Nibble}
    (h : digits.length = f.template.wildcards) : ∃ op, f.RoundTrip digits op := by
  obtain ⟨w, hadmits, rfl⟩ := f.template.exists_picked h
  let op : Opcode := ⟨w, f.recognised (f.template.picked w)⟩
  have hspelled : f.spelled (f.template.picked w) =
      [f.template.lead, op.x, op.y, op.n].map Nibble.digit := by
    rw [spelled, Template.spell_picked hadmits, Word.toList_text, Template.lead_of_admits hadmits]
    rfl
  refine ⟨op, ?_⟩
  exact {
    encode_eq := encode_picked hadmits
    decode_eq := decodeInt_eq_ok_iff.2 ⟨rfl, fits_recognised hadmits⟩
    form_eq := rfl
    spelled_eq := hspelled
    nn_eq := by
      rw [hspelled, op.nn_toNat]
      exact readNumeral?_digits 16 [op.y, op.n]
    nnn_eq := by
      rw [hspelled, op.nnn_toNat]
      exact readNumeral?_digits 16 [op.x, op.y, op.n] }

theorem encode_of_decodeInt {v : Int} {op : Opcode} (h : decodeInt v = .ok op) :
    (op.form.encode op.operandDigits).map Int.ofNat = some v := by
  obtain ⟨rfl, hfits⟩ := decodeInt_eq_ok_iff.1 h
  rw [op.operandDigits_eq, Form.encode_picked hfits.1]
  rfl

/-- Encoding digits and decoding them are inverse to each other, but for the two calls of routines that
are instructions of their own. -/
theorem encoding_round_trip :
    (∀ (f : Form) (digits : List Nibble), digits.length = f.template.wildcards →
      ∃ op, f.RoundTrip digits op) ∧
    (∀ (v : Int) (op : Opcode), decodeInt v = .ok op →
      (op.form.encode op.operandDigits).map Int.ofNat = some v) ∧
    ∀ (v v' : Int) (op op' : Opcode), decodeInt v = .ok op → decodeInt v' = .ok op' →
      (op = op' ↔ v = v') := by
  refine ⟨fun f digits h => f.exists_roundTrip h, fun v op h => encode_of_decodeInt h, ?_⟩
  intro v v' op op' h h'
  constructor
  · rintro rfl
    exact (decodeInt_eq_ok_iff.1 h).1.symm.trans (decodeInt_eq_ok_iff.1 h').1
  · rintro rfl
    exact Except.ok.inj (h.symm.trans h')

def returning : Opcode := ⟨0x00EE, .ret⟩

def fiveRows : Opcode := ⟨0xD125, .draw⟩

theorem returning_round_trip :
    [0x0, 0xE, 0xE].length = Form.callMachineRoutine.template.wildcards ∧
      (∃ op, Form.callMachineRoutine.RoundTrip [0x0, 0xE, 0xE] op) ∧
      decodeInt 0x00EE = .ok returning ∧ decodeInt 0xD125 = .ok fiveRows ∧
      (fiveRows.form.encode fiveRows.operandDigits).map Int.ofNat = some 0xD125 ∧
      (returning = fiveRows ↔ (0x00EE : Int) = 0xD125) := by
  obtain ⟨hencoded, hdecoded, hinjective⟩ := encoding_round_trip
  have hlength : [0x0, 0xE, 0xE].length = Form.callMachineRoutine.template.wildcards := rfl
  have hreturning : decodeInt 0x00EE = .ok returning := by decide +kernel
  have hrows : decodeInt 0xD125 = .ok fiveRows := by decide +kernel
  exact ⟨hlength, hencoded _ _ hlength, hreturning, hrows, hdecoded _ _ hrows,
    hinjective _ _ _ _ hreturning hrows⟩

end ChipEight
