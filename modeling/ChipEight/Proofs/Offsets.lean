import ChipEight.Proofs.Actions
import ChipEight.Proofs.Images

/-! Images loaded at any offset. They are refused or put in their place, unless the offset is negative: then it is
taken to be counted from the end of the memory, which nothing checks. -/

namespace ChipEight

abbrev MemoryM := EStateM Fault Memory

namespace MemoryM

def inspect {α : Type} (f : Memory → Except Fault α) : MemoryM α := fun m =>
  match f m with
  | .ok a => .ok a m
  | .error e => .error e m

def revise (f : Memory → Except Fault Memory) : MemoryM Unit := fun m =>
  match f m with
  | .ok m' => .ok () m'
  | .error e => .error e m

def load (image : Array Byte) (offset : Int) : MemoryM Unit :=
  revise (·.load image offset)

section Outcomes

variable {α : Type} {f : Memory → Except Fault α} {g : Memory → Except Fault Memory} {m m' : Memory}
  {a : α} {e : Fault}

theorem inspect_of_ok (hm : f m = .ok a) : inspect f m = .ok a m := by
  rw [inspect, hm]

theorem inspect_of_error (hm : f m = .error e) : inspect f m = .error e m := by
  rw [inspect, hm]

theorem revise_of_ok (hm : g m = .ok m') : revise g m = .ok () m' := by
  rw [revise, hm]

theorem revise_of_error (hm : g m = .error e) : revise g m = .error e m := by
  rw [revise, hm]

end Outcomes

end MemoryM

section Anywhere

variable (cells image : Array Byte) (offset : Int)

theorem size_spliced_astride (hbegin : offset < 0) (hend : 0 ≤ offset + image.size)
    (hsize : image.size ≤ cells.size) :
    (spliced cells offset (offset + image.size) image).size = cells.size + image.size := by
  have hstart : clampBound cells.size offset = (offset + cells.size).toNat := if_pos hbegin
  have hstop : clampBound cells.size (offset + image.size) ≤ clampBound cells.size offset := by
    rw [hstart, clampBound, if_neg (Int.not_lt.2 hend)]
    omega
  have hle := clampBound_le cells.size offset
  simp only [spliced, Array.size_append, Array.size_extract, Nat.max_eq_left hstop]
  omega

theorem spliced_empty : spliced cells offset (offset + (#[] : Array Byte).size) #[] = cells := by
  have hoffset : offset + ((#[] : Array Byte).size : Int) = offset := Int.add_zero offset
  rw [hoffset, spliced, Array.append_empty, Nat.max_self, Array.extract_append_extract,
    Nat.min_eq_left (Nat.zero_le _), Nat.max_eq_right (clampBound_le ..), Array.extract_size]

end Anywhere

namespace Memory

variable {m m' : Memory} {image : Array Byte} {offset : Int}

theorem read_of_outside (m : Memory) {a : Int} (ha : ¬ (0 ≤ a ∧ a < 4096)) :
    m.read a = .error (.memoryAccess a) :=
  dif_neg ha

theorem read_congr {a : Int} (hcell : ∀ k : Nat, a = k → k < 4096 → m'.cell k = m.cell k) :
    m'.read a = m.read a := by
  by_cases ha : 0 ≤ a ∧ a < 4096
  · obtain ⟨k, rfl⟩ := Int.eq_ofNat_of_zero_le ha.1
    have hk : k < 4096 := Int.ofNat_lt.1 ha.2
    rw [m'.read_eq_cell hk, m.read_eq_cell hk, hcell k rfl hk]
  · rw [m'.read_of_outside ha, m.read_of_outside ha]

theorem load_of_large (m : Memory) (hsize : 4096 < offset + image.size) :
    m.load image offset = .error (.programTooLarge image.size offset) :=
  if_pos hsize

theorem load_of_fits (m : Memory) (hsize : offset + image.size ≤ 4096) :
    m.load image offset = .ok (m.overlay image offset) :=
  if_neg (Int.not_lt.2 hsize)

theorem overlay_of_empty (m : Memory) (hempty : image.size = 0) : m.overlay image offset = m := by
  obtain rfl := Array.eq_empty_of_size_eq_zero hempty
  obtain ⟨cells, hcells⟩ := m
  simp only [overlay, spliced_empty]

/-- How an image is loaded as it should be: not at all, because there is no room for it, or byte by byte from the
offset on, with all other cells left alone. -/
inductive LoadedInPlace (m : Memory) (image : Array Byte) (offset : Int) :
    EStateM.Result Fault Memory Unit → Prop
  | refused (hlarge : 4096 < offset + image.size) :
      LoadedInPlace m image offset (.error (.programTooLarge image.size offset) m)
  | loaded {m' : Memory} (hsize : m'.cells.size = 4096)
      (himage : ∀ i (hi : i < image.size), m'.read (offset + i) = .ok image[i])
      (hrest : ∀ a : Int, ¬ (offset ≤ a ∧ a < offset + image.size) → m'.read a = m.read a) :
      LoadedInPlace m image offset (.ok () m')

theorem memoryM_load_of_fits (hsize : offset + image.size ≤ 4096) :
    MemoryM.load image offset m = .ok () (m.overlay image offset) :=
  MemoryM.revise_of_ok (m.load_of_fits hsize)

theorem loadedInPlace_of_large (hsize : 4096 < offset + image.size) :
    LoadedInPlace m image offset (MemoryM.load image offset m) := by
  rw [MemoryM.load, MemoryM.revise_of_error (m.load_of_large hsize)]
  exact .refused hsize

theorem loadedInPlace_of_nonneg (hm : m.cells.size = 4096) (hoffset : 0 ≤ offset)
    (hsize : offset + image.size ≤ 4096) :
    LoadedInPlace m image offset (MemoryM.load image offset m) := by
  obtain ⟨a, rfl⟩ := Int.eq_ofNat_of_zero_le hoffset
  have hend : a + image.size ≤ 4096 := by omega
  have hroom : a + image.size ≤ m.cells.size := hm ▸ hend
  rw [memoryM_load_of_fits hsize]
  refine .loaded ((m.size_overlay hroom).trans hm) (fun i hi => ?_) fun b hb => ?_
  · have hai : a + i < 4096 := by omega
    rw [← Int.natCast_add, read_eq_cell _ hai, m.cell_overlay hroom, if_pos (by omega),
      Nat.add_sub_cancel_left]
    simp [hi]
  · refine read_congr fun k hk _ => ?_
    rw [m.cell_overlay hroom, if_neg (by omega)]

theorem loadedInPlace_of_empty (hm : m.cells.size = 4096) (hempty : image.size = 0) :
    LoadedInPlace m image offset (MemoryM.load image offset m) := by
  by_cases hsize : 4096 < offset + image.size
  · exact loadedInPlace_of_large hsize
  · rw [memoryM_load_of_fits (Int.not_lt.1 hsize), m.overlay_of_empty hempty]
    exact .loaded hm (fun i hi => by omega) fun _ _ => rfl

theorem not_loadedInPlace_of_negative (hoffset : offset < 0) (himage : 0 < image.size)
    (hsize : offset + image.size ≤ 4096) :
    ¬ LoadedInPlace m image offset (MemoryM.load image offset m) := by
  rw [memoryM_load_of_fits hsize]
  intro hloaded
  cases hloaded with
  | loaded _ hbytes =>
    have hfirst := hbytes 0 himage
    rw [read_of_outside _ (by omega)] at hfirst
    cases hfirst

/-- An image is refused or put in its place exactly if its offset is not negative, or there is nothing to put, or
no room. -/
theorem loadedInPlace_iff (hm : m.cells.size = 4096) (image : Array Byte) (offset : Int) :
    LoadedInPlace m image offset (MemoryM.load image offset m) ↔
      0 ≤ offset ∨ image.size = 0 ∨ 4096 < offset + image.size := by
  constructor
  · refine fun hloaded => Classical.byContradiction fun hbad => ?_
    exact not_loadedInPlace_of_negative (by omega) (by omega) (by omega) hloaded
  · rintro (hoffset | hempty | hlarge)
    · by_cases hsize : 4096 < offset + image.size
      · exact loadedInPlace_of_large hsize
      · exact loadedInPlace_of_nonneg hm hoffset (Int.not_lt.1 hsize)
    · exact loadedInPlace_of_empty hm hempty
    · exact loadedInPlace_of_large hlarge

theorem loadedInPlace_at_end :
    blank.cells.size = 4096 ∧
      LoadedInPlace blank #[0x12, 0x34] 4094 (MemoryM.load #[0x12, 0x34] 4094 blank) := by
  have hblank : blank.cells.size = 4096 := Array.size_replicate
  exact ⟨hblank, (loadedInPlace_iff hblank #[0x12, 0x34] 4094).2 (.inl (by decide))⟩

theorem grown_by_negative_offset :
    ∃ m', MemoryM.load #[0xAA] (-1) blank = .ok () m' ∧ m'.cells.size = 4097 ∧
      ¬ LoadedInPlace blank #[0xAA] (-1) (MemoryM.load #[0xAA] (-1) blank) := by
  have hblank : blank.cells.size = 4096 := Array.size_replicate
  have hsize := size_spliced_astride blank.cells #[0xAA] (-1) (by decide) (by decide)
    (by rw [hblank]; decide)
  rw [hblank] at hsize
  exact ⟨_, memoryM_load_of_fits (by decide), hsize.trans (by decide),
    not_loadedInPlace_of_negative (by decide) (by decide) (by decide)⟩

end Memory

end ChipEight
