import ChipEight.Fault
import ChipEight.Grid

/-! Monochrome screens, and the sprites drawn on them. -/

namespace ChipEight

abbrev Screen (w h : Int) := Grid Bool w.toNat h.toNat

namespace Screen

variable {w h : Int}

def blank : Screen w h := Grid.fill false

def ofSize (w h : Int) : Except Fault (Screen w h) :=
  let most := 4294967296
  if !(isLong w && isLong h) then .error (.uncountable .unindexable)
  else if most < h ∨ (0 < h ∧ most < h * w) then .error (.uncountable .exhausted)
  else .ok blank

def read (s : Screen w h) (x y : Int) : Except Fault Bool :=
  match s.at? x y with
  | some on => .ok on
  | none => .error (.outOfRange (.pixel x y w h))

def write (s : Screen w h) (x y : Int) (on : Bool) : Except Fault (Screen w h) := do
  let _ ← s.read x y
  return s.put x.toNat y.toNat on

def flip (s : Screen w h) (x y : Int) : Except Fault (Bool × Screen w h) := do
  let old ← s.read x y
  return (old, s.put x.toNat y.toNat !old)

def text (s : Screen w h) : String :=
  "\n".intercalate <| s.rows.map fun r => String.ofList (r.map fun on => if on then '*' else ' ')

end Screen

end ChipEight
