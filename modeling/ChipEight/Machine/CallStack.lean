import ChipEight.Fault

/-! The stack of sixteen return addresses. -/

namespace ChipEight

structure CallStack where
  slots : Vector Int 16
  depth : Nat
  depth_le : depth ≤ 16
deriving DecidableEq

namespace CallStack

def empty : CallStack :=
  ⟨Vector.replicate 16 0, 0, by decide⟩

def push (s : CallStack) (a : Int) : Except Fault CallStack :=
  if h : s.depth < 16 then .ok ⟨s.slots.set s.depth a, s.depth + 1, h⟩
  else .error .stackOverflow

def pop (s : CallStack) : Except Fault (Int × CallStack) :=
  if h : s.depth = 0 then .error .stackUnderflow
  else
    have hd : s.depth - 1 < 16 := by have := s.depth_le; omega
    .ok (s.slots[s.depth - 1], ⟨s.slots.set (s.depth - 1) 0, s.depth - 1, by omega⟩)

def live (s : CallStack) : List Int :=
  s.slots.toList.take s.depth

def text (s : CallStack) : String :=
  "[" ++ ", ".intercalate (s.live.map fun a => "0x" ++ Text.hex 3 a) ++ "]"

end CallStack

end ChipEight
