import ChipEight.Address
import ChipEight.Fault
import ChipEight.Machine.Font

/-! The main memory: cells that are read and written one by one, and images that are copied in. -/

namespace ChipEight

def clampBound (length : Nat) (i : Int) : Nat :=
  if i < 0 then (i + length).toNat else min i.toNat length

theorem clampBound_le (length : Nat) (i : Int) : clampBound length i ≤ length := by
  unfold clampBound
  split <;> omega

/-- Puts an image in place of the cells between two bounds; bounds in the wrong order enclose
nothing. -/
def spliced (cells : Array Byte) (start stop : Int) (image : Array Byte) : Array Byte :=
  let a := clampBound cells.size start
  let b := max a (clampBound cells.size stop)
  cells.extract 0 a ++ image ++ cells.extract b cells.size

theorem size_le_size_spliced (cells : Array Byte) (start : Int) (image : Array Byte) :
    cells.size ≤ (spliced cells start (start + image.size) image).size := by
  simp only [spliced, Array.size_append, Array.size_extract, clampBound]
  split <;> split <;> omega

/-- At least 4096 cells, of which the first 4096 have an address. -/
structure Memory where
  cells : Array Byte
  size_ge : 4096 ≤ cells.size

namespace Memory

def size : Nat := 4096

def programStart : Nat := 0x200

def fontStart : Nat := 0

def blank : Memory :=
  ⟨Array.replicate 4096 0, by simp⟩

def read (m : Memory) (a : Int) : Except Fault Byte :=
  if h : 0 ≤ a ∧ a < 4096 then
    have hs : a.toNat < m.cells.size := by have := m.size_ge; omega
    .ok m.cells[a.toNat]
  else .error (.memoryAccess a)

def put (m : Memory) (a : Int) (b : Byte) : Except Fault Memory :=
  if h : 0 ≤ a ∧ a < 4096 then
    have hs : a.toNat < m.cells.size := by have := m.size_ge; omega
    .ok ⟨m.cells.set a.toNat b, by simpa using m.size_ge⟩
  else .error (.memoryAccess a)

def write (m : Memory) (a v : Int) : Except Fault Memory := do
  -- the address is checked before the value
  let _ ← m.read a
  let b ← fit 8 (.cell v) v
  m.put a b

def readWord (m : Memory) (a : Int) : Except Fault Word := do
  let high ← m.read a
  let low ← m.read (a + 1)
  return high ++ low

def overlay (m : Memory) (image : Array Byte) (offset : Int) : Memory :=
  ⟨spliced m.cells offset (offset + image.size) image,
    Nat.le_trans m.size_ge (size_le_size_spliced m.cells offset image)⟩

def loadFont (m : Memory) (offset : Int) : Memory :=
  m.overlay Font.bytes.toArray offset

def load (m : Memory) (program : Array Byte) (offset : Int) : Except Fault Memory :=
  if offset + program.size > 4096 then .error (.programTooLarge program.size offset)
  else .ok (m.overlay program offset)

def zeroCount (count : Int) : Except Fault Nat :=
  if !isLong count then .error (.uncountable .unindexable)
  else if count < 0 then .error (.uncountable .negative)
  else if 9223372036854775774 < count then .error (.uncountable .tooLong)
  else if 68719476736 < count then .error (.uncountable .exhausted)
  else .ok count.toNat

def loadZeros (m : Memory) (count offset : Int) : Except Fault Memory := do
  let size ← zeroCount count
  -- the zeros are made only if they fit
  if offset + size > 4096 then .error (.programTooLarge size offset)
  else m.load (Array.replicate size 0) offset

def slice (m : Memory) (start stop : Int) : Array Byte :=
  m.cells.extract (clampBound m.cells.size start) (clampBound m.cells.size stop)

end Memory

def imageOf (values : List Int) : Except Fault (Array Byte) :=
  (values.mapM (fit 8 .image)).map (·.toArray)

end ChipEight
