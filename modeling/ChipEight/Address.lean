import ChipEight.Text.Numeral
import ChipEight.Word

/-! Addresses, which wrap around at the end of the address space. -/

namespace ChipEight

def Address.wrap (v : Int) : Address :=
  BitVec.ofInt 12 v

def Address.step (a : Address) (size : Int) : Address :=
  Address.wrap (a.toNat + size)

theorem Address.toNat_wrap (v : Int) : ((Address.wrap v).toNat : Int) = v % 4096 := by
  rw [Address.wrap, BitVec.toNat_ofInt]
  exact Int.toNat_of_nonneg (Int.emod_nonneg v (by decide))

def Address.text (a : Address) : String :=
  "0x" ++ Text.hex 3 a.toNat

end ChipEight
