import ChipEight.Instruction.Mnemonic
import ChipEight.Proofs.Encoding

/-! The assembly text of an instruction tells its form, and all digits of its word but those to which the
form pays no heed. -/

namespace ChipEight

open Text

inductive Field
  | n
  | nn
  | nnn
deriving DecidableEq

inductive Operand
  | vx
  | vy
  | decimal (field : Field)
  | hexadecimal (width : Nat) (field : Field)
  | name (text : String)
deriving DecidableEq

namespace Form

def keyword : Form → String
  | callMachineRoutine => "SYS"
  | clearScreen => "CLS"
  | ret => "RET"
  | jump | jumpPlusV0 => "JP"
  | call => "CALL"
  | skipEqImm | skipEqReg => "SE"
  | skipNeImm | skipNeReg => "SNE"
  | setImm | setReg | setAddress | readDelay | waitKey | setDelay | setSound | fontAddress
  | storeBcd | storeRegs | loadRegs => "LD"
  | addImm | addReg | addToAddress => "ADD"
  | or => "OR"
  | and => "AND"
  | xor => "XOR"
  | subReg => "SUB"
  | shr => "SHR"
  | subnReg => "SUBN"
  | shl => "SHL"
  | rand => "RND"
  | draw => "DRW"
  | skipIfPressed => "SKP"
  | skipIfNotPressed => "SKNP"

def operands : Form → List Operand
  | callMachineRoutine | jump | call => [.hexadecimal 3 .nnn]
  | clearScreen | ret => []
  | skipEqImm | skipNeImm | setImm | addImm => [.vx, .decimal .nn]
  | skipEqReg | skipNeReg | setReg | or | and | xor | addReg | subReg | subnReg => [.vx, .vy]
  | shr | shl | skipIfPressed | skipIfNotPressed => [.vx]
  | setAddress => [.name "I", .hexadecimal 3 .nnn]
  | jumpPlusV0 => [.name "V0", .hexadecimal 3 .nnn]
  | rand => [.vx, .hexadecimal 2 .nn]
  | draw => [.vx, .vy, .decimal .n]
  | readDelay => [.vx, .name "DT"]
  | waitKey => [.vx, .name "K"]
  | setDelay => [.name "DT", .vx]
  | setSound => [.name "ST", .vx]
  | addToAddress => [.name "I", .vx]
  | fontAddress => [.name "F", .vx]
  | storeBcd => [.name "B", .vx]
  | storeRegs => [.name "[I]", .vx]
  | loadRegs => [.vx, .name "[I]"]

end Form

def Field.value (op : Opcode) : Field → Nat
  | n => op.n.toNat
  | nn => op.nn.toNat
  | nnn => op.nnn.toNat

def Operand.chars (op : Opcode) : Operand → List Char
  | vx => op.vx.toList
  | vy => op.vy.toList
  | decimal field => numeral 10 0 (field.value op)
  | hexadecimal width field => '0' :: 'x' :: numeral 16 width (field.value op)
  | name text => text.toList

def listed : List (List Char) → List (List Char)
  | [] => []
  | [t] => [t]
  | t :: ts => (t ++ [',']) :: listed ts

namespace Opcode

def parts (op : Opcode) : List (List Char) :=
  op.form.keyword.toList :: listed (op.form.operands.map (Operand.chars op))

theorem toList_mnemonic (op : Opcode) : op.mnemonic.toList = [' '].intercalate op.parts := by
  obtain ⟨w, f⟩ := op
  cases f <;>
    simp [mnemonic, parts, Form.keyword, Form.operands, listed, Operand.chars, Field.value,
      immediate, target, decimal, hex, List.intercalate_cons_cons]

end Opcode

section Blanks

theorem toList_registerName (i : Nibble) : (registerName i).toList = ['V', i.digit] := by
  rw [registerName, String.toList_ofList]
  rfl

theorem blank_not_mem_registerName (i : Nibble) : ' ' ∉ (registerName i).toList := by
  rw [toList_registerName]
  revert i
  decide

theorem blank_not_mem_numeral {base : Nat} (hb : 2 ≤ base) (hb' : base ≤ 16) (width n : Nat) :
    ' ' ∉ numeral base width n :=
  not_mem_numeral_natCast hb hb' (by decide) width n

theorem Form.blank_not_mem_keyword (f : Form) : ' ' ∉ f.keyword.toList := by
  cases f <;> decide

theorem Form.blank_not_mem_name {f : Form} {text : String} (h : .name text ∈ f.operands) :
    ' ' ∉ text.toList := by
  cases f <;> simp only [operands, List.mem_cons, List.not_mem_nil, or_false, false_or,
    Operand.name.injEq, reduceCtorEq] at h <;> subst h <;> decide

theorem Opcode.blank_not_mem_chars (op : Opcode) {o : Operand} (ho : o ∈ op.form.operands) :
    ' ' ∉ o.chars op := by
  cases o with
  | vx => exact blank_not_mem_registerName op.x
  | vy => exact blank_not_mem_registerName op.y
  | decimal field =>
    show ' ' ∉ numeral 10 0 _
    apply blank_not_mem_numeral <;> decide
  | hexadecimal width field =>
    have hnumeral : ' ' ∉ numeral 16 width (field.value op) := by
      apply blank_not_mem_numeral <;> decide
    simpa [Operand.chars] using hnumeral
  | name text => exact op.form.blank_not_mem_name ho

theorem blank_not_mem_listed {ts : List (List Char)} (h : ∀ t ∈ ts, ' ' ∉ t) :
    ∀ t ∈ listed ts, ' ' ∉ t := by
  induction ts with
  | nil => exact List.forall_mem_nil _
  | cons t ts ih =>
    rw [List.forall_mem_cons] at h
    cases ts with
    | nil => simpa [listed] using h.1
    | cons u us =>
      rw [listed, List.forall_mem_cons]
      · exact ⟨by simpa using h.1, ih h.2⟩
      · exact nofun

theorem Opcode.blank_not_mem_parts (op : Opcode) : ∀ t ∈ op.parts, ' ' ∉ t := by
  rw [parts, List.forall_mem_cons]
  refine ⟨op.form.blank_not_mem_keyword, blank_not_mem_listed fun t ht => ?_⟩
  obtain ⟨o, ho, rfl⟩ := List.mem_map.1 ht
  exact op.blank_not_mem_chars ho

theorem Opcode.parts_eq_of_mnemonic {op op' : Opcode} (h : op.mnemonic = op'.mnemonic) :
    op.parts = op'.parts := by
  -- No part has a blank of its own.
  have hsplit : ∀ op : Opcode, List.splitOn ' ' op.mnemonic.toList = op.parts := by
    intro op
    rw [op.toList_mnemonic]
    exact List.splitOn_intercalate ' ' op.blank_not_mem_parts (List.cons_ne_nil _ _)
  rw [← hsplit, ← hsplit, h]

end Blanks

section Shapes

def shape : List Char → List Char
  | [] => []
  | c :: cs =>
    if c = 'V' then ['V'] else if c.isDigit then ['0'] else (c :: cs).filter (· ≠ ',')

def Operand.shape : Operand → List Char
  | vx | vy => ['V']
  | decimal _ | hexadecimal _ _ => ['0']
  | name text => ChipEight.shape text.toList

def Form.shapes (f : Form) : List (List Char) :=
  shape f.keyword.toList :: f.operands.map Operand.shape

theorem shape_comma (t : List Char) : shape (t ++ [',']) = shape t := by
  have hcomma : [','].filter (· ≠ ',') = [] := rfl
  cases t with
  | nil => rfl
  | cons c cs =>
    have hfilter : (c :: (cs ++ [','])).filter (· ≠ ',') = (c :: cs).filter (· ≠ ',') := by
      rw [← List.cons_append, List.filter_append, hcomma, List.append_nil]
    rw [List.cons_append, shape, shape, hfilter]

theorem map_shape_listed (ts : List (List Char)) : (listed ts).map shape = ts.map shape := by
  induction ts with
  | nil => rfl
  | cons t ts ih =>
    cases ts with
    | nil => rfl
    | cons u us =>
      rw [listed, List.map_cons, ih, shape_comma]
      · rfl
      · exact nofun

theorem shape_numeral (width n : Nat) : shape (numeral 10 width n) = ['0'] := by
  have hdigit : ∀ d < 10, lowerDigit d ≠ 'V' ∧ (lowerDigit d).isDigit = true := by decide
  obtain ⟨c, cs, hnumeral⟩ := List.exists_cons_of_ne_nil (numeral_ne_nil 10 width n)
  have hc : c ∈ numeral 10 width n := by
    rw [hnumeral]
    exact List.mem_cons_self ..
  obtain ⟨d, hd, rfl⟩ := exists_of_mem_numeral (by decide) hc
  rw [hnumeral, shape, if_neg (hdigit d hd).1, if_pos (hdigit d hd).2]

theorem Operand.shape_chars (op : Opcode) (o : Operand) : ChipEight.shape (o.chars op) = o.shape := by
  cases o with
  | vx =>
    rw [chars, Opcode.vx, toList_registerName]
    rfl
  | vy =>
    rw [chars, Opcode.vy, toList_registerName]
    rfl
  | decimal field => exact shape_numeral ..
  | hexadecimal width field => rfl
  | name text => rfl

theorem Opcode.map_shape_parts (op : Opcode) : op.parts.map shape = op.form.shapes := by
  rw [parts, List.map_cons, map_shape_listed, List.map_map]
  exact congrArg (_ :: ·) (List.map_congr_left fun o _ => o.shape_chars op)

theorem Form.shapes_injective {f g : Form} (h : f.shapes = g.shapes) : f = g := by
  have hall : ∀ f ∈ all, ∀ g ∈ all, f.shapes = g.shapes → f = g := by decide +kernel
  exact hall f (mem_all f) g (mem_all g) h

end Shapes

theorem listed_injective {ts us : List (List Char)} (h : listed ts = listed us) : ts = us := by
  induction ts generalizing us with
  | nil =>
    match us with
    | [] => rfl
    | [_] => cases h
    | _ :: _ :: _ => cases h
  | cons t ts ih =>
    match ts, us with
    | [], [u] => exact h
    | [], _ :: u :: us => cases us <;> cases h
    | t' :: ts, [u] => cases ts <;> cases h
    | t' :: ts, u :: u' :: us =>
      obtain ⟨hhead, htail⟩ := List.cons.inj h
      rw [List.append_cancel_right hhead, ih htail]

theorem Opcode.mnemonic_eq_iff {op op' : Opcode} :
    op.mnemonic = op'.mnemonic ↔
      op.form = op'.form ∧ ∀ o ∈ op.form.operands, o.chars op = o.chars op' := by
  constructor
  · intro h
    have hparts := parts_eq_of_mnemonic h
    have hform : op.form = op'.form := by
      apply Form.shapes_injective
      rw [← op.map_shape_parts, ← op'.map_shape_parts, hparts]
    refine ⟨hform, ?_⟩
    rw [parts, parts, ← hform] at hparts
    exact List.map_inj_left.1 (listed_injective (List.cons.inj hparts).2)
  · rintro ⟨hform, hoperands⟩
    rw [← String.toList_inj, op.toList_mnemonic, op'.toList_mnemonic, parts, parts, ← hform,
      List.map_congr_left hoperands]

section Digits

def Field.places : Field → List Nat
  | n => [3]
  | nn => [2, 3]
  | nnn => [1, 2, 3]

def Operand.places : Operand → List Nat
  | vx => [1]
  | vy => [2]
  | decimal field => field.places
  | hexadecimal _ field => field.places
  | name _ => []

def Word.AgreeOn (places : List Nat) (w w' : Word) : Prop :=
  ∀ i ∈ places, w.nibbles[i]? = w'.nibbles[i]?

theorem Opcode.agreeOn_iff {op op' : Opcode} :
    (Word.AgreeOn [1] op.word op'.word ↔ op.x = op'.x) ∧
      (Word.AgreeOn [2] op.word op'.word ↔ op.y = op'.y) ∧
      (Word.AgreeOn [3] op.word op'.word ↔ op.n = op'.n) := by
  have hplace : ∀ {i : Nat} {d d' : Nibble}, op.word.nibbles[i]? = some d →
      op'.word.nibbles[i]? = some d' → (Word.AgreeOn [i] op.word op'.word ↔ d = d') := by
    intro i d d' hd hd'
    rw [Word.AgreeOn, List.forall_mem_singleton, hd, hd', Option.some_inj]
  exact ⟨hplace rfl rfl, hplace rfl rfl, hplace rfl rfl⟩

theorem Word.agreeOn_cons {i j : Nat} {places : List Nat} {w w' : Word} :
    AgreeOn (i :: j :: places) w w' ↔ AgreeOn [i] w w' ∧ AgreeOn (j :: places) w w' := by
  rw [AgreeOn, List.forall_mem_cons, AgreeOn, List.forall_mem_singleton, AgreeOn]

theorem Field.value_eq_iff {op op' : Opcode} (field : Field) :
    field.value op = field.value op' ↔ Word.AgreeOn field.places op.word op'.word := by
  obtain ⟨hx, hy, hn⟩ := @Opcode.agreeOn_iff op op'
  have hnibble : ∀ d : Nibble, d.toNat < 16 := fun d => d.isLt
  have hdigits := And.intro (hnibble op.y) (And.intro (hnibble op'.y)
    (And.intro (hnibble op.n) (hnibble op'.n)))
  cases field with
  | n =>
    rw [value, value, places, hn]
    exact BitVec.toNat_inj
  | nn =>
    rw [value, value, places, Word.agreeOn_cons, hy, hn, op.nn_toNat, op'.nn_toNat,
      ← BitVec.toNat_inj, ← BitVec.toNat_inj]
    simp only [ofDigits, List.foldl_cons, List.foldl_nil]
    omega
  | nnn =>
    rw [value, value, places, Word.agreeOn_cons, Word.agreeOn_cons, hx, hy, hn, op.nnn_toNat,
      op'.nnn_toNat, ← BitVec.toNat_inj, ← BitVec.toNat_inj, ← BitVec.toNat_inj]
    simp only [ofDigits, List.foldl_cons, List.foldl_nil]
    omega

theorem toList_registerName_inj {i j : Nibble} :
    (registerName i).toList = (registerName j).toList ↔ i = j := by
  rw [toList_registerName, toList_registerName]
  constructor
  · intro h
    exact Nibble.digit_injective (List.cons.inj (List.cons.inj h).2).1
  · rintro rfl
    rfl

theorem numeral_inj {base : Nat} (hb : 2 ≤ base) (hb' : base ≤ 16) {width n n' : Nat} :
    numeral base width n = numeral base width n' ↔ n = n' :=
  ⟨numeral_natCast_injective hb hb', fun h => by rw [h]⟩

theorem Operand.chars_eq_iff {op op' : Opcode} (o : Operand) :
    o.chars op = o.chars op' ↔ Word.AgreeOn o.places op.word op'.word := by
  obtain ⟨hx, hy, -⟩ := @Opcode.agreeOn_iff op op'
  cases o with
  | vx =>
    rw [places, hx]
    exact toList_registerName_inj
  | vy =>
    rw [places, hy]
    exact toList_registerName_inj
  | decimal field =>
    rw [chars, chars, numeral_inj (by decide) (by decide), field.value_eq_iff]
    rfl
  | hexadecimal width field =>
    rw [chars, chars, List.cons_inj_right, List.cons_inj_right,
      numeral_inj (by decide) (by decide), field.value_eq_iff]
    rfl
  | name text => exact ⟨fun _ => List.forall_mem_nil _, fun _ => rfl⟩

end Digits

def Form.ignored : Form → List Nat
  | skipEqReg => [3]
  | shr | shl => [2]
  | _ => []

/-- Instructions of the same form whose words differ at most in digits that are ignored. -/
def Opcode.Alike (op op' : Opcode) : Prop :=
  op.form = op'.form ∧ ∀ i, i ∉ op.form.ignored → op.word.nibbles[i]? = op'.word.nibbles[i]?

theorem Form.places_not_ignored {f : Form} {o : Operand} (ho : o ∈ f.operands) :
    ∀ i ∈ o.places, i ∉ f.ignored := by
  have hall : ∀ f ∈ all, ∀ o ∈ f.operands, ∀ i ∈ o.places, i ∉ f.ignored := by decide +kernel
  exact hall f (mem_all f) o ho

theorem Opcode.mnemonic_of_alike {op op' : Opcode} (h : op.Alike op') :
    op.mnemonic = op'.mnemonic := by
  refine mnemonic_eq_iff.2 ⟨h.1, fun o ho => o.chars_eq_iff.2 fun i hi => ?_⟩
  exact h.2 i (Form.places_not_ignored ho i hi)

end ChipEight
