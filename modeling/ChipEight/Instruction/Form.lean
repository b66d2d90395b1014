import ChipEight.Instruction.Template

/-! The 35 instruction forms, with their kinds and templates. -/

namespace ChipEight

inductive Kind
  | assignment | bcd | bitOp | call | conditional | constant | display | flow | keyOp | math
  | memory | random | sound | timer
deriving DecidableEq, Repr

def Kind.name : Kind → String
  | assignment => "ASSIGNMENT"
  | bcd => "BCD"
  | bitOp => "BIT_OP"
  | call => "CALL"
  | conditional => "CONDITIONAL"
  | constant => "CONSTANT"
  | display => "DISPLAY"
  | flow => "FLOW"
  | keyOp => "KEY_OP"
  | math => "MATH"
  | memory => "MEMORY"
  | random => "RANDOM"
  | sound => "SOUND"
  | timer => "TIMER"

def Kind.label : Kind → String
  | assignment => "assignment"
  | bcd => "bcd"
  | bitOp => "bit-op"
  | call => "call"
  | conditional => "conditional"
  | constant => "constant"
  | display => "display"
  | flow => "flow"
  | keyOp => "key-op"
  | math => "math"
  | memory => "memory"
  | random => "random"
  | sound => "sound"
  | timer => "timer"

inductive Form
  | callMachineRoutine | clearScreen | ret | jump | call
  | skipEqImm | skipNeImm | skipEqReg | setImm | addImm
  | setReg | or | and | xor | addReg | subReg | shr | subnReg | shl
  | skipNeReg | setAddress | jumpPlusV0 | rand | draw
  | skipIfPressed | skipIfNotPressed
  | readDelay | waitKey | setDelay | setSound | addToAddress | fontAddress
  | storeBcd | storeRegs | loadRegs
deriving DecidableEq, Repr

namespace Form

def all : List Form :=
  [callMachineRoutine, clearScreen, ret, jump, call, skipEqImm, skipNeImm, skipEqReg, setImm,
    addImm, setReg, or, and, xor, addReg, subReg, shr, subnReg, shl, skipNeReg, setAddress,
    jumpPlusV0, rand, draw, skipIfPressed, skipIfNotPressed, readDelay, waitKey, setDelay,
    setSound, addToAddress, fontAddress, storeBcd, storeRegs, loadRegs]

theorem mem_all (f : Form) : f ∈ all := by
  cases f <;> decide

def name : Form → String
  | callMachineRoutine => "CALL_MACHINE_ROUTINE"
  | clearScreen => "CLEAR_SCREEN"
  | ret => "RETURN"
  | jump => "JUMP"
  | call => "CALL"
  | skipEqImm => "SKIP_EQ_IMM"
  | skipNeImm => "SKIP_NE_IMM"
  | skipEqReg => "SKIP_EQ_REG"
  | setImm => "SET_IMM"
  | addImm => "ADD_IMM"
  | setReg => "SET_REG"
  | or => "OR"
  | and => "AND"
  | xor => "XOR"
  | addReg => "ADD_REG"
  | subReg => "SUB_REG"
  | shr => "SHR"
  | subnReg => "SUBN_REG"
  | shl => "SHL"
  | skipNeReg => "SKIP_NE_REG"
  | setAddress => "SET_ADDRESS"
  | jumpPlusV0 => "JUMP_PLUS_V0"
  | rand => "RAND"
  | draw => "DRAW"
  | skipIfPressed => "SKIP_IF_PRESSED"
  | skipIfNotPressed => "SKIP_IF_NOT_PRESSED"
  | readDelay => "READ_DELAY"
  | waitKey => "WAIT_KEY"
  | setDelay => "SET_DELAY"
  | setSound => "SET_SOUND"
  | addToAddress => "ADD_TO_ADDRESS"
  | fontAddress => "FONT_ADDRESS"
  | storeBcd => "STORE_BCD"
  | storeRegs => "STORE_REGS"
  | loadRegs => "LOAD_REGS"

def kind : Form → Kind
  | callMachineRoutine => .call
  | clearScreen | draw => .display
  | ret | jump | call | jumpPlusV0 => .flow
  | skipEqImm | skipNeImm | skipEqReg | skipNeReg => .conditional
  | setImm | addImm => .constant
  | setReg => .assignment
  | or | and | xor | shr | shl => .bitOp
  | addReg | subReg | subnReg => .math
  | setAddress | addToAddress | fontAddress | storeRegs | loadRegs => .memory
  | rand => .random
  | skipIfPressed | skipIfNotPressed | waitKey => .keyOp
  | readDelay | setDelay => .timer
  | setSound => .sound
  | storeBcd => .bcd

/-- The comparison of two registers is recognised by its leading digit alone. -/
def template : Form → Template
  | callMachineRoutine => ⟨0x0, .n, .n, .n⟩
  | clearScreen => ⟨0x0, .digit 0x0, .digit 0xE, .digit 0x0⟩
  | ret => ⟨0x0, .digit 0x0, .digit 0xE, .digit 0xE⟩
  | jump => ⟨0x1, .n, .n, .n⟩
  | call => ⟨0x2, .n, .n, .n⟩
  | skipEqImm => ⟨0x3, .x, .n, .n⟩
  | skipNeImm => ⟨0x4, .x, .n, .n⟩
  | skipEqReg => ⟨0x5, .x, .y, .n⟩
  | setImm => ⟨0x6, .x, .n, .n⟩
  | addImm => ⟨0x7, .x, .n, .n⟩
  | setReg => ⟨0x8, .x, .y, .digit 0x0⟩
  | or => ⟨0x8, .x, .y, .digit 0x1⟩
  | and => ⟨0x8, .x, .y, .digit 0x2⟩
  | xor => ⟨0x8, .x, .y, .digit 0x3⟩
  | addReg => ⟨0x8, .x, .y, .digit 0x4⟩
  | subReg => ⟨0x8, .x, .y, .digit 0x5⟩
  | shr => ⟨0x8, .x, .y, .digit 0x6⟩
  | subnReg => ⟨0x8, .x, .y, .digit 0x7⟩
  | shl => ⟨0x8, .x, .y, .digit 0xE⟩
  | skipNeReg => ⟨0x9, .x, .y, .digit 0x0⟩
  | setAddress => ⟨0xA, .n, .n, .n⟩
  | jumpPlusV0 => ⟨0xB, .n, .n, .n⟩
  | rand => ⟨0xC, .x, .n, .n⟩
  | draw => ⟨0xD, .x, .y, .n⟩
  | skipIfPressed => ⟨0xE, .x, .digit 0x9, .digit 0xE⟩
  | skipIfNotPressed => ⟨0xE, .x, .digit 0xA, .digit 0x1⟩
  | readDelay => ⟨0xF, .x, .digit 0x0, .digit 0x7⟩
  | waitKey => ⟨0xF, .x, .digit 0x0, .digit 0xA⟩
  | setDelay => ⟨0xF, .x, .digit 0x1, .digit 0x5⟩
  | setSound => ⟨0xF, .x, .digit 0x1, .digit 0x8⟩
  | addToAddress => ⟨0xF, .x, .digit 0x1, .digit 0xE⟩
  | fontAddress => ⟨0xF, .x, .digit 0x2, .digit 0x9⟩
  | storeBcd => ⟨0xF, .x, .digit 0x3, .digit 0x3⟩
  | storeRegs => ⟨0xF, .x, .digit 0x5, .digit 0x5⟩
  | loadRegs => ⟨0xF, .x, .digit 0x6, .digit 0x5⟩

def setsCounter : Form → Bool
  | ret | jump | call | jumpPlusV0 => true
  | _ => false

end Form

end ChipEight
