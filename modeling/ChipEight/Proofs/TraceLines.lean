import ChipEight.Proofs.Assembly
import ChipEight.Proofs.Notices

/-! A line of the trace tells which instruction was carried out and where it was fetched, and no more of it
than what it does. -/

namespace ChipEight

open Text Actions

def behind (mark : List Char) : List Char → List Char
  | [] => []
  | c :: cs =>
    if mark.isPrefixOf (c :: cs) then (c :: cs).drop mark.length else behind mark cs

theorem Word.nibbles_injective {w w' : Word} (h : w.nibbles = w'.nibbles) : w = w' := by
  have hread := w.readNumeral?_text
  rw [text, h, ← text, w'.readNumeral?_text] at hread
  exact (BitVec.eq_of_toNat_eq (Option.some.inj hread)).symm

namespace Opcode

variable {op op' : Opcode}

theorem Alike.eq_of_ignored_eq_nil (h : op.Alike op') (hnil : op.form.ignored = []) : op = op' := by
  have hword : op.word = op'.word := by
    apply Word.nibbles_injective
    apply List.ext_getElem?
    intro i
    exact h.2 i (hnil ▸ List.not_mem_nil)
  obtain ⟨w, f⟩ := op
  obtain ⟨w', f'⟩ := op'
  obtain rfl : f = f' := h.1
  obtain rfl : w = w' := hword
  rfl

theorem Alike.perform_eq (h : op.Alike op') (answer : Int) :
    op.perform answer = op'.perform answer := by
  obtain ⟨hx, hy, -⟩ := @agreeOn_iff op op'
  have hplace : ∀ i, i ∉ op.form.ignored → Word.AgreeOn [i] op.word op'.word := by
    intro i hi
    rw [Word.AgreeOn, List.forall_mem_singleton]
    exact h.2 i hi
  cases hop : op.form with
  | skipEqReg =>
    have hop' : op'.form = .skipEqReg := h.1 ▸ hop
    rw [hop] at hplace
    simp only [perform, hop, hop', hx.1 (hplace 1 (by decide)), hy.1 (hplace 2 (by decide))]
  | shr =>
    have hop' : op'.form = .shr := h.1 ▸ hop
    rw [hop] at hplace
    simp only [perform, hop, hop', hx.1 (hplace 1 (by decide))]
  | shl =>
    have hop' : op'.form = .shl := h.1 ▸ hop
    rw [hop] at hplace
    simp only [perform, hop, hop', hx.1 (hplace 1 (by decide))]
  | _ => rw [h.eq_of_ignored_eq_nil (by rw [hop]; rfl)]

theorem Alike.execute_eq (h : op.Alike op') (host : Host) : execute host op = execute host op' := by
  have henter : ∀ m : Machine, m.enter op = m.enter op' := by
    intro m
    rw [Machine.enter_eq, Machine.enter_eq, h.1]
  have hline : ∀ address, op.traceLine address = op'.traceLine address := by
    intro address
    rw [traceLine, traceLine, mnemonic_of_alike h]
  unfold execute
  simp only [henter, h.1, h.perform_eq, hline]

end Opcode

end ChipEight
