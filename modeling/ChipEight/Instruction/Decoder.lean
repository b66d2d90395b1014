import ChipEight.Fault
import ChipEight.Instruction.Form

/-! The decoder: forms grouped by leading digit, the most specific template first. -/

namespace ChipEight

structure Opcode where
  word : Word
  form : Form
deriving DecidableEq, Repr

namespace Opcode

def kind (op : Opcode) : Kind := op.form.kind

def x (op : Opcode) : Nibble := op.word.extractLsb' 8 4

def y (op : Opcode) : Nibble := op.word.extractLsb' 4 4

def n (op : Opcode) : Nibble := op.word.extractLsb' 0 4

def nn (op : Opcode) : Byte := op.word.extractLsb' 0 8

def nnn (op : Opcode) : Address := op.word.extractLsb' 0 12

def text (op : Opcode) : String :=
  "OpCode(raw=0x" ++ Text.hex 4 op.word.toNat ++ ", form=" ++ op.form.name ++ ", kind=" ++
    op.kind.name ++ ")"

end Opcode

def mostSpecificFirst (forms : List Form) : List Form :=
  (List.range 4).flatMap fun k => forms.filter (·.template.wildcards = k)

structure Table where
  groups : Bank (List Form)

def Table.ofForms (forms : List Form) : Table :=
  ⟨⟨Vector.ofFn fun d => mostSpecificFirst (forms.filter (·.template.lead.toFin = d))⟩⟩

def Table.find? (t : Table) (w : Word) : Option Form :=
  (t.groups.get (w.extractLsb' 12 4)).find? (·.template.admits w)

def Table.standard : Table := Table.ofForms Form.all

def Table.decode (t : Table) (w : Word) : Except Fault Opcode :=
  match t.find? w with
  | some f => .ok ⟨w, f⟩
  | none => .error (.unknownOpcode w)

def decode (w : Word) : Except Fault Opcode :=
  Table.standard.decode w

def Table.decodeInt (t : Table) (v : Int) : Except Fault Opcode := do
  t.decode (← fit 16 (.word v) v)

def decodeInt (v : Int) : Except Fault Opcode :=
  Table.standard.decodeInt v

end ChipEight
