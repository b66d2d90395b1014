/-! Digits of natural numbers in a base, and the texts of integers made of them. -/

namespace ChipEight.Text

def digits (base n : Nat) : List Nat :=
  if _h : 2 ≤ base ∧ base ≤ n then digits base (n / base) ++ [n % base] else [n]
termination_by n
decreasing_by exact Nat.div_lt_self (by omega) _h.1

theorem digits_of_lt {base n : Nat} (h : n < base) : digits base n = [n] := by
  rw [digits, dif_neg (by omega)]

theorem digits_of_le {base n : Nat} (hb : 2 ≤ base) (h : base ≤ n) :
    digits base n = digits base (n / base) ++ [n % base] := by
  rw [digits, dif_pos ⟨hb, h⟩]

theorem lt_of_mem_digits {base : Nat} (hb : 2 ≤ base) (n d : Nat) (hd : d ∈ digits base n) :
    d < base := by
  induction n using Nat.strongRecOn with
  | ind n ih =>
    by_cases h : n < base
    · rw [digits_of_lt h, List.mem_singleton] at hd
      omega
    · rw [digits_of_le hb (by omega), List.mem_append, List.mem_singleton] at hd
      rcases hd with hd | rfl
      · exact ih _ (Nat.div_lt_self (by omega) hb) hd
      · exact Nat.mod_lt _ (by omega)

def ofDigits (base : Nat) (ds : List Nat) : Nat :=
  ds.foldl (fun n d => n * base + d) 0

theorem ofDigits_append_singleton (base : Nat) (ds : List Nat) (d : Nat) :
    ofDigits base (ds ++ [d]) = ofDigits base ds * base + d := by
  simp [ofDigits]

theorem ofDigits_digits {base : Nat} (hb : 2 ≤ base) (n : Nat) :
    ofDigits base (digits base n) = n := by
  induction n using Nat.strongRecOn with
  | ind n ih =>
    by_cases h : n < base
    · simp [digits_of_lt h, ofDigits]
    · rw [digits_of_le hb (by omega), ofDigits_append_singleton,
        ih _ (Nat.div_lt_self (by omega) hb)]
      exact Nat.div_add_mod' n base

def lowerDigit (d : Nat) : Char :=
  Char.ofNat (if d < 10 then 48 + d else 87 + d)

def upperDigit (d : Nat) : Char :=
  Char.ofNat (if d < 10 then 48 + d else 55 + d)

def numeral (base width : Nat) (v : Int) : List Char :=
  let sign := if v < 0 then ['-'] else []
  let body := (digits base v.natAbs).map lowerDigit
  sign ++ List.replicate (width - (sign.length + body.length)) '0' ++ body

def decimal (v : Int) : String :=
  String.ofList (numeral 10 0 v)

def hex (width : Nat) (v : Int) : String :=
  String.ofList (numeral 16 width v)

end ChipEight.Text
