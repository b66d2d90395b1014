import ChipEight.Machine.Screen
import ChipEight.Window.Opening

/-! A window in which every pixel of a screen is a square of one colour. -/

namespace ChipEight

structure Colour where
  red : Byte
  green : Byte
  blue : Byte
deriving DecidableEq, Repr

def Colour.ofInts (red green blue : Int) : Except WindowError Colour :=
  match fit? 8 red, fit? 8 green, fit? 8 blue with
  | some red, some green, some blue => .ok ⟨red, green, blue⟩
  | _, _, _ => .error .colour

namespace Grid

variable {α : Type} {w h : Nat}

def stretch (start length : Int) (limit : Nat) : List Nat :=
  List.range' start.toNat (min (start + length).toNat limit - start.toNat)

def paint (g : Grid α w h) (left top width height : Int) (a : α) : Grid α w h :=
  (stretch top height h).foldl (fun g y =>
    (stretch left width w).foldl (fun g x => g.put x y a) g) g

end Grid

/-- What windows show before anything has been painted, and how they are filled with a colour, as a
whole or within a rectangle. -/
structure Painter where
  unpainted : {w h : Nat} → Grid Colour w h
  fill : {w h : Nat} → Grid Colour w h → Colour → Grid Colour w h
  rectangle : {w h : Nat} → Grid Colour w h → (left top width height : Int) → Colour →
    Except WindowError (Grid Colour w h)

namespace Painter

def standard : Painter where
  unpainted := Grid.fill ⟨0, 0, 0⟩
  fill _ colour := Grid.fill colour
  rectangle g left top width height colour := do
    let left ← pixelCount .rectangle left
    let top ← pixelCount .rectangle top
    let width ← pixelCount .rectangle width
    let height ← pixelCount .rectangle height
    return g.paint left top width height colour

variable (painter : Painter) {w h : Nat}

def paintCell (g : Grid Colour w h) (side : Int) (colour : Colour) (x y : Nat) :
    Except WindowError (Grid Colour w h) :=
  painter.rectangle g (x * side) (y * side) side side colour

def paintRow (g : Grid Colour w h) (side : Int) (colour : Colour) (row : List Bool) (y : Nat) :
    Except WindowError (Grid Colour w h) :=
  row.zipIdx.foldlM (fun g (on, x) => if on then painter.paintCell g side colour x y else .ok g) g

def paintRows (g : Grid Colour w h) (side : Int) (colour : Colour) (rows : List (List Bool)) :
    Except WindowError (Grid Colour w h) :=
  rows.zipIdx.foldlM (fun g (row, y) => painter.paintRow g side colour row y) g

end Painter

structure Surface where
  width : Nat
  height : Nat
  scale : Int
  background : Colour
  foreground : Colour
  pixels : Grid Colour width height

namespace Surface

def openedBy (painter : Painter) (size : (width height : Int) → Except WindowError (Nat × Nat))
    (columns rows scale : Int) (background foreground : Colour) : Except WindowError Surface := do
  let (width, height) ← size (columns * scale) (rows * scale)
  return ⟨width, height, scale, background, foreground, painter.fill painter.unpainted background⟩

def renderBy (painter : Painter) {w h : Int} (s : Surface) (screen : Screen w h) :
    Except WindowError Surface := do
  let blank := painter.fill s.pixels s.background
  let pixels ← painter.paintRows blank s.scale s.foreground screen.rows
  return { s with pixels }

def opened (desktop : Nat × Nat) : (columns rows scale : Int) →
    (background foreground : Colour) → Except WindowError Surface :=
  openedBy .standard (windowSize desktop)

def render {w h : Int} : Surface → Screen w h → Except WindowError Surface :=
  renderBy .standard

end Surface

def Screen.echo {w h : Int} (s : Screen w h) : String :=
  s.text ++ "\n\n"

structure Picture where
  width : Int
  height : Int
  screen : Screen width height

structure Display where
  surface : Surface
  echoes : Bool

namespace Display

def render (painter : Painter) (d : Display) (p : Picture) :
    Except WindowError (Display × String) := do
  let surface ← d.surface.renderBy painter p.screen
  return ({ d with surface }, if d.echoes then p.screen.echo else "")

def renderAll (painter : Painter) (d : Display) :
    List Picture → Except WindowError (Display × List String)
  | [] => .ok (d, [])
  | p :: pictures => do
    let (d, text) ← d.render painter p
    let (d, texts) ← d.renderAll painter pictures
    return (d, text :: texts)

end Display

end ChipEight
