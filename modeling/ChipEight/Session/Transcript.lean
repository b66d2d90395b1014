/-! What is printed: output, of which some is trace, and warnings. -/

namespace ChipEight

inductive Chunk
  | trace (text : String)
  | plain (text : String)
  | notice (text : String)
deriving DecidableEq, Repr

namespace Chunk

def isTrace : Chunk → Bool
  | trace _ => true
  | _ => false

def output : Chunk → String
  | trace text => text
  | plain text => text
  | notice _ => ""

def warning : Chunk → String
  | notice text => text
  | _ => ""

end Chunk

def outputOf (printed : List Chunk) : String :=
  String.join (printed.map Chunk.output)

def warningsOf (printed : List Chunk) : String :=
  String.join (printed.map Chunk.warning)

end ChipEight
