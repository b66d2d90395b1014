import ChipEight.Proofs.Assembly
import ChipEight.Proofs.Stack

/-! The report of a machine tells all that it is about. Each part of it is cut off at a character that the part has
not, with which the label behind it begins. -/

namespace ChipEight

open Text

section Cutting

variable {c : Char} {xs ys us vs label : List Char}

def GoesOn (c : Char) (text : List Char) : Prop :=
  ∀ d ∈ text.head?, d = c

theorem takeWhile_of_goesOn (hxs : c ∉ xs) (hus : GoesOn c us) :
    (xs ++ us).takeWhile (· != c) = xs := by
  have hrest : us.takeWhile (· != c) = [] := by
    cases us with
    | nil => rfl
    | cons d us => simp [hus d rfl]
  rw [List.takeWhile_append_of_pos, hrest, List.append_nil]
  intro d hd
  exact bne_iff_ne.2 (ne_of_mem_of_not_mem hd hxs)

theorem eq_of_goesOn (hxs : c ∉ xs) (hys : c ∉ ys) (hus : GoesOn c us) (hvs : GoesOn c vs)
    (h : xs ++ us = ys ++ vs) : xs = ys ∧ us = vs := by
  have hxy : xs = ys := by rw [← takeWhile_of_goesOn hxs hus, h, takeWhile_of_goesOn hys hvs]
  subst hxy
  exact ⟨rfl, List.append_cancel_left h⟩

theorem goesOn_append (hlabel : label.head? = some c) (us : List Char) : GoesOn c (label ++ us) := by
  intro d hd
  rw [List.head?_append, hlabel, Option.some_or] at hd
  exact (Option.some.inj hd).symm

theorem eq_of_label (hlabel : label.head? = some c) (hxs : c ∉ xs) (hys : c ∉ ys)
    (h : xs ++ (label ++ us) = ys ++ (label ++ vs)) : xs = ys ∧ us = vs := by
  obtain ⟨hxy, hrest⟩ := eq_of_goesOn hxs hys (goesOn_append hlabel us) (goesOn_append hlabel vs) h
  exact ⟨hxy, List.append_cancel_left hrest⟩

section Entries

variable {sep : List Char} (hsep : sep.head? = some c) {xs ys : List (List Char)}
include hsep

theorem goesOn_flatMap (xs : List (List Char)) : GoesOn c (xs.flatMap (sep ++ ·)) := by
  cases xs with
  | nil => exact fun _ hd => absurd hd (by simp)
  | cons x xs =>
    rw [List.flatMap_cons, List.append_assoc]
    exact goesOn_append hsep _

theorem flatMap_injective (hxs : ∀ x ∈ xs, c ∉ x) (hys : ∀ y ∈ ys, c ∉ y)
    (h : xs.flatMap (sep ++ ·) = ys.flatMap (sep ++ ·)) : xs = ys := by
  have hne : sep ≠ [] := by
    rintro rfl
    cases hsep
  induction xs generalizing ys with
  | nil =>
    cases ys with
    | nil => rfl
    | cons y ys => simp [hne] at h
  | cons x xs ih =>
    cases ys with
    | nil => simp [hne] at h
    | cons y ys =>
      rw [List.forall_mem_cons] at hxs hys
      simp only [List.flatMap_cons, List.append_assoc, List.append_cancel_left_eq] at h
      obtain ⟨hxy, hrest⟩ :=
        eq_of_goesOn hxs.1 hys.1 (goesOn_flatMap hsep xs) (goesOn_flatMap hsep ys) h
      rw [hxy, ih hxs.2 hys.2 hrest]

omit hsep in
theorem intercalate_cons (x : List Char) (xs : List (List Char)) :
    sep.intercalate (x :: xs) = x ++ xs.flatMap (sep ++ ·) := by
  induction xs generalizing x with
  | nil => simp
  | cons y ys ih => simp [List.intercalate_cons_cons, ih]

theorem intercalate_injective (hxs : ∀ x ∈ xs, x ≠ [] ∧ c ∉ x) (hys : ∀ y ∈ ys, y ≠ [] ∧ c ∉ y)
    (h : sep.intercalate xs = sep.intercalate ys) : xs = ys := by
  cases xs with
  | nil =>
    cases ys with
    | nil => rfl
    | cons y ys =>
      rw [List.intercalate_nil, intercalate_cons] at h
      exact absurd (List.append_eq_nil_iff.1 h.symm).1 (hys y List.mem_cons_self).1
  | cons x xs =>
    cases ys with
    | nil =>
      rw [List.intercalate_nil, intercalate_cons] at h
      exact absurd (List.append_eq_nil_iff.1 h).1 (hxs x List.mem_cons_self).1
    | cons y ys =>
      rw [List.forall_mem_cons] at hxs hys
      rw [intercalate_cons, intercalate_cons] at h
      obtain ⟨hxy, hrest⟩ :=
        eq_of_goesOn hxs.1.2 hys.1.2 (goesOn_flatMap hsep xs) (goesOn_flatMap hsep ys) h
      rw [hxy, flatMap_injective hsep (fun x hx => (hxs.2 x hx).2) (fun y hy => (hys.2 y hy).2) hrest]

omit hsep in
theorem not_mem_intercalate {d : Char} (hd : d ∉ sep) (hxs : ∀ x ∈ xs, d ∉ x) :
    d ∉ sep.intercalate xs := by
  cases xs with
  | nil => simp
  | cons x xs =>
    rw [List.forall_mem_cons] at hxs
    simpa [intercalate_cons, hxs.1, hd] using hxs.2

end Entries

end Cutting

section Parts

def addressChars (v : Int) : List Char :=
  '0' :: 'x' :: numeral 16 3 v

theorem toList_hexadecimal (v : Int) : ("0x" ++ hex 3 v).toList = addressChars v := by
  simp [hex, addressChars]

theorem addressChars_injective {v v' : Int} (h : addressChars v = addressChars v') : v = v' :=
  numeral_injective (by decide) (by decide) (List.cons.inj (List.cons.inj h).2).2

theorem not_mem_addressChars {c : Char} (hc : c ∉ ['0', 'x', '-'])
    (hdigit : ∀ d < 16, c ≠ lowerDigit d) (v : Int) : c ∉ addressChars v := by
  have hnumeral : c ∉ numeral 16 3 v :=
    not_mem_numeral (by decide) (by decide) (fun h => hc (by simp [h])) hdigit 3 v
  simp only [List.mem_cons, List.not_mem_nil, or_false, not_or] at hc
  simp [addressChars, hc, hnumeral]

theorem Address.toList_text (a : Address) : a.text.toList = addressChars a.toNat :=
  toList_hexadecimal a.toNat

theorem Address.text_injective {a b : Address} (h : a.text.toList = b.text.toList) : a = b := by
  rw [toList_text, toList_text] at h
  exact BitVec.eq_of_toNat_eq (Int.ofNat.inj (addressChars_injective h))

theorem Address.blank_not_mem_text (a : Address) : ' ' ∉ a.text.toList := by
  rw [toList_text]
  exact not_mem_addressChars (by decide) (by decide) _

theorem Timer.toList_text (t : Timer) : t.text.toList = numeral 10 0 t.value.toNat :=
  String.toList_ofList

theorem Timer.text_injective {t u : Timer} (h : t.text.toList = u.text.toList) : t = u := by
  rw [toList_text, toList_text] at h
  obtain ⟨t⟩ := t
  exact congrArg mk
    (BitVec.eq_of_toNat_eq (numeral_natCast_injective (by decide) (by decide) h))

theorem Timer.not_mem_text {c : Char} (hdigit : ∀ d < 16, c ≠ lowerDigit d) (t : Timer) :
    c ∉ t.text.toList := by
  rw [toList_text]
  exact not_mem_numeral_natCast (by decide) (by decide) hdigit 0 _

namespace Registers

def entry (r : Registers) (i : Nibble) : List Char :=
  (registerName i).toList ++ '=' :: numeral 16 2 (r.get i).toNat

theorem toList_text (r : Registers) :
    r.text.toList = [' '].intercalate ((List.finRange 16).map fun i => r.entry (BitVec.ofFin i)) := by
  rw [text, String.toList_intercalate, List.map_map]
  simp [Function.comp_def, entry, hex]

theorem not_mem_entry {c : Char} (hname : ∀ i, c ∉ (registerName i).toList) (hc : c ≠ '=')
    (hdigit : ∀ d < 16, c ≠ lowerDigit d) (r : Registers) (i : Nibble) : c ∉ r.entry i := by
  have hnumeral : c ∉ numeral 16 2 (r.get i).toNat :=
    not_mem_numeral_natCast (by decide) (by decide) hdigit 2 _
  simp [entry, hname, hc, hnumeral]

theorem newline_not_mem_text (r : Registers) : '\n' ∉ r.text.toList := by
  have hname : ∀ i, '\n' ∉ (registerName i).toList := by
    intro i
    rw [toList_registerName]
    revert i
    decide
  rw [toList_text]
  refine not_mem_intercalate (by decide) fun x hx => ?_
  obtain ⟨i, -, rfl⟩ := List.mem_map.1 hx
  exact r.not_mem_entry hname (by decide) (by decide) _

theorem text_injective {r t : Registers} (h : r.text.toList = t.text.toList) : r = t := by
  have hentries : ∀ (r : Registers) (x), x ∈ (List.finRange 16).map (fun i => r.entry (BitVec.ofFin i)) →
      x ≠ [] ∧ ' ' ∉ x := by
    intro r x hx
    obtain ⟨i, -, rfl⟩ := List.mem_map.1 hx
    exact ⟨by simp [entry], r.not_mem_entry blank_not_mem_registerName (by decide) (by decide) _⟩
  rw [toList_text, toList_text] at h
  have hmap := intercalate_injective rfl (hentries r) (hentries t) h
  apply Bank.ext_get
  intro i
  have hentry := List.map_inj_left.1 hmap i.toFin (List.mem_finRange _)
  have hvalue := (List.cons.inj (List.append_cancel_left hentry)).2
  exact BitVec.eq_of_toNat_eq (numeral_natCast_injective (by decide) (by decide) hvalue)

end Registers

namespace CallStack

theorem toList_text (s : CallStack) :
    s.text.toList = '[' :: ([',', ' '].intercalate (s.live.map addressChars) ++ [']']) := by
  have hentries :
      (s.live.map fun v => "0x" ++ hex 3 v).map String.toList = s.live.map addressChars := by
    rw [List.map_map]
    exact List.map_congr_left fun v _ => toList_hexadecimal v
  simp only [text, String.toList_append, String.toList_intercalate, hentries]
  rfl

theorem newline_not_mem_text (s : CallStack) : '\n' ∉ s.text.toList := by
  have hentries : '\n' ∉ [',', ' '].intercalate (s.live.map addressChars) := by
    refine not_mem_intercalate (by decide) fun x hx => ?_
    obtain ⟨v, -, rfl⟩ := List.mem_map.1 hx
    exact not_mem_addressChars (by decide) (by decide) v
  simp [toList_text, hentries]

theorem live_eq_of_text {s t : CallStack} (h : s.text.toList = t.text.toList) : s.live = t.live := by
  have hentries : ∀ (live : List Int) (x), x ∈ live.map addressChars → x ≠ [] ∧ ',' ∉ x := by
    intro live x hx
    obtain ⟨v, -, rfl⟩ := List.mem_map.1 hx
    exact ⟨List.cons_ne_nil _ _, not_mem_addressChars (by decide) (by decide) v⟩
  rw [toList_text, toList_text] at h
  have hjoined := List.append_cancel_right (List.cons.inj h).2
  have hmap := intercalate_injective rfl (hentries s.live) (hentries t.live) hjoined
  exact (List.map_inj_right fun _ _ => addressChars_injective).1 hmap

end CallStack

theorem Keypad.get_held_eq_of_text {k l : Keypad} (h : k.text = l.text) (i : Nibble) :
    k.held.get i = l.held.get i := by
  have hdigit : ∀ i : Nibble, i.digit ≠ '.' := by decide
  have hchar : (if k.held.get i then i.digit else '.') = if l.held.get i then i.digit else '.' :=
    List.map_inj_left.1 (String.ofList_injective h) i.toFin (List.mem_finRange _)
  revert hchar
  cases k.held.get i <;> cases l.held.get i <;> simp [hdigit i, (hdigit i).symm]

end Parts

namespace Machine

structure ReportedAlike (a b : Machine) : Prop where
  counter_eq : a.counter = b.counter
  index_eq : a.index = b.index
  register_eq : ∀ i, a.v i = b.v i
  live_eq : a.stack.live = b.stack.live
  depth_eq : a.stack.depth = b.stack.depth
  delay_eq : a.delay = b.delay
  sound_eq : a.sound = b.sound
  dirty_eq : a.dirty = b.dirty
  held_eq : ∀ i, a.keypad.held.get i = b.keypad.held.get i

def dirtyChars (dirty : Bool) : List Char :=
  if dirty then "True".toList else "False".toList

theorem toList_report (m : Machine) :
    m.report.toList = "PC_REGISTER:".toList ++ (m.counter.text.toList ++
      (" | IDX_REGISTER:".toList ++ (m.index.text.toList ++
      (" | VARIABLE_REGISTERS:".toList ++ (m.registers.text.toList ++
      ("\nSTACK:".toList ++ (m.stack.text.toList ++
      ("\nDELAY_TIMER:".toList ++ (m.delay.text.toList ++
      (" | SOUND_TIMER:".toList ++ (m.sound.text.toList ++
      ("\nDRAW: ".toList ++ (dirtyChars m.dirty ++
      (" | KEYPAD: ".toList ++ m.keypad.text.toList)))))))))))))) := by
  have hdirty : (if m.dirty then "True" else "False").toList = dirtyChars m.dirty :=
    apply_ite String.toList _ _ _
  unfold report
  simp only [String.toList_append, List.append_assoc, hdirty]

theorem report_of_alike {a b : Machine} (h : a.ReportedAlike b) : a.report = b.report := by
  have hregisters : a.registers = b.registers := Bank.ext_get h.register_eq
  have hstack : a.stack.text = b.stack.text := by rw [CallStack.text, h.live_eq, CallStack.text]
  have hkeypad : a.keypad.text = b.keypad.text := by simp only [Keypad.text, h.held_eq]
  unfold report
  rw [h.counter_eq, h.index_eq, hregisters, hstack, h.delay_eq, h.sound_eq, h.dirty_eq, hkeypad]

theorem alike_of_report {a b : Machine} (h : a.report = b.report) : a.ReportedAlike b := by
  have hchars := congrArg String.toList h
  rw [toList_report, toList_report] at hchars
  have hblank : ∀ dirty, ' ' ∉ dirtyChars dirty := by decide
  have hinjective : ∀ dirty dirty', dirtyChars dirty = dirtyChars dirty' → dirty = dirty' := by decide
  -- The parts are cut off one after another, each with the label behind it.
  obtain ⟨hcounter, hchars⟩ := eq_of_label rfl a.counter.blank_not_mem_text
    b.counter.blank_not_mem_text (List.append_cancel_left hchars)
  obtain ⟨hindex, hchars⟩ := eq_of_label rfl a.index.blank_not_mem_text b.index.blank_not_mem_text
    hchars
  obtain ⟨hregisters, hchars⟩ := eq_of_label rfl a.registers.newline_not_mem_text
    b.registers.newline_not_mem_text hchars
  obtain ⟨hstack, hchars⟩ := eq_of_label rfl a.stack.newline_not_mem_text
    b.stack.newline_not_mem_text hchars
  obtain ⟨hdelay, hchars⟩ := eq_of_label rfl (a.delay.not_mem_text (by decide))
    (b.delay.not_mem_text (by decide)) hchars
  obtain ⟨hsound, hchars⟩ := eq_of_label rfl (a.sound.not_mem_text (by decide))
    (b.sound.not_mem_text (by decide)) hchars
  obtain ⟨hdirty, hkeypad⟩ := eq_of_label rfl (hblank a.dirty) (hblank b.dirty) hchars
  have hlive := CallStack.live_eq_of_text hstack
  exact {
    counter_eq := Address.text_injective hcounter
    index_eq := Address.text_injective hindex
    register_eq i := by rw [v, v, Registers.text_injective hregisters]
    live_eq := hlive
    depth_eq := by rw [← a.stack.length_live, hlive, b.stack.length_live]
    delay_eq := Timer.text_injective hdelay
    sound_eq := Timer.text_injective hsound
    dirty_eq := hinjective _ _ hdirty
    held_eq := Keypad.get_held_eq_of_text (String.toList_injective hkeypad) }

/-- Two machines have the same report exactly if they are alike in all that goes into it, however long its parts are:
nothing of these is lost or mistaken for another. -/
theorem report_eq_iff (a b : Machine) : a.report = b.report ↔ a.ReportedAlike b :=
  ⟨alike_of_report, report_of_alike⟩

end Machine

end ChipEight
