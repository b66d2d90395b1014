import ChipEight.Instruction.Decoder

/-! The assembly text of decoded instructions. -/

namespace ChipEight

open Text

namespace Opcode

def vx (op : Opcode) : String := registerName op.x

def vy (op : Opcode) : String := registerName op.y

def immediate (op : Opcode) : String := decimal op.nn.toNat

def target (op : Opcode) : String := "0x" ++ hex 3 op.nnn.toNat

def mnemonic (op : Opcode) : String :=
  match op.form with
  | .callMachineRoutine => "SYS " ++ op.target
  | .clearScreen => "CLS"
  | .ret => "RET"
  | .jump => "JP " ++ op.target
  | .call => "CALL " ++ op.target
  | .skipEqImm => "SE " ++ op.vx ++ ", " ++ op.immediate
  | .skipNeImm => "SNE " ++ op.vx ++ ", " ++ op.immediate
  | .skipEqReg => "SE " ++ op.vx ++ ", " ++ op.vy
  | .setImm => "LD " ++ op.vx ++ ", " ++ op.immediate
  | .addImm => "ADD " ++ op.vx ++ ", " ++ op.immediate
  | .setReg => "LD " ++ op.vx ++ ", " ++ op.vy
  | .or => "OR " ++ op.vx ++ ", " ++ op.vy
  | .and => "AND " ++ op.vx ++ ", " ++ op.vy
  | .xor => "XOR " ++ op.vx ++ ", " ++ op.vy
  | .addReg => "ADD " ++ op.vx ++ ", " ++ op.vy
  | .subReg => "SUB " ++ op.vx ++ ", " ++ op.vy
  | .shr => "SHR " ++ op.vx
  | .subnReg => "SUBN " ++ op.vx ++ ", " ++ op.vy
  | .shl => "SHL " ++ op.vx
  | .skipNeReg => "SNE " ++ op.vx ++ ", " ++ op.vy
  | .setAddress => "LD I, " ++ op.target
  | .jumpPlusV0 => "JP V0, " ++ op.target
  | .rand => "RND " ++ op.vx ++ ", 0x" ++ hex 2 op.nn.toNat
  | .draw => "DRW " ++ op.vx ++ ", " ++ op.vy ++ ", " ++ decimal op.n.toNat
  | .skipIfPressed => "SKP " ++ op.vx
  | .skipIfNotPressed => "SKNP " ++ op.vx
  | .readDelay => "LD " ++ op.vx ++ ", DT"
  | .waitKey => "LD " ++ op.vx ++ ", K"
  | .setDelay => "LD DT, " ++ op.vx
  | .setSound => "LD ST, " ++ op.vx
  | .addToAddress => "ADD I, " ++ op.vx
  | .fontAddress => "LD F, " ++ op.vx
  | .storeBcd => "LD B, " ++ op.vx
  | .storeRegs => "LD [I], " ++ op.vx
  | .loadRegs => "LD " ++ op.vx ++ ", [I]"

def traceLine (address : Address) (op : Opcode) : String :=
  "mem_addr: 0x" ++ hex 4 address.toNat ++ "    instruction: " ++ op.mnemonic ++ "\n"

end Opcode

def Word.traceMark (w : Word) : String :=
  "opcode: 0x" ++ hex 4 w.toNat ++ "    "

end ChipEight
