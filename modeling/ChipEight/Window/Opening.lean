import ChipEight.Word

/-! What a window is given of the size that is asked for, and why some windows cannot be opened. -/

namespace ChipEight

/-- A window is untitled if there is no path to name it after, and unsized if its sides are no
numbers of pixels. In an open one there may be no place for a rectangle. -/
inductive WindowError
  | untitled
  | brokenTitle
  | colour
  | unsized
  | negative
  | tooLarge
  | rectangle
deriving DecidableEq, Repr

def WindowError.message : WindowError → String
  | untitled => "'list' object has no attribute 'split'"
  | brokenTitle => "embedded null character"
  | colour => "invalid color argument"
  | unsized => "size must be two numbers"
  | negative => "Cannot set negative sized display mode"
  | tooLarge => "Window is too large."
  | rectangle => "rect argument is invalid"

/-- The number of pixels that is meant by an integer of at most 64 bits: its lower 32 count. -/
def pixelCount (e : WindowError) (n : Int) : Except WindowError Int :=
  if isLong n then .ok (n.bmod 4294967296) else .error e

def longestSide : Int := 16384

/-- The size in pixels of a window that is asked for. One without any extent takes the whole
desktop, and one without extent in a single direction is a pixel wide there. -/
def windowSize (desktop : Nat × Nat) (width height : Int) : Except WindowError (Nat × Nat) := do
  let width ← pixelCount .unsized width
  let height ← pixelCount .unsized height
  if width < 0 ∨ height < 0 then .error .negative
  else if width = 0 ∧ height = 0 then .ok desktop
  else if longestSide < width ∨ longestSide < height then .error .tooLarge
  else .ok (max width.toNat 1, max height.toNat 1)

end ChipEight
