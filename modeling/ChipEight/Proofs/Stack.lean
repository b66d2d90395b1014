import ChipEight.Machine.CallStack

/-! The stack of return addresses as the list of the addresses that are in use. -/

namespace ChipEight.CallStack

variable {s t : CallStack} {l : List Int} {a : Int}

/-- The slots are a list of addresses followed by zeros. -/
structure Holds (s : CallStack) (l : List Int) : Prop where
  depth_eq : s.depth = l.length
  slots_eq : s.slots.toList = l ++ List.replicate (16 - l.length) 0

theorem empty_holds : empty.Holds [] := ⟨rfl, rfl⟩

theorem Holds.length_le (hs : s.Holds l) : l.length ≤ 16 :=
  hs.depth_eq ▸ s.depth_le

theorem Holds.getElem?_eq (hs : s.Holds l) {i : Nat} (hi : i < 16) :
    some s.slots[i] = (l ++ List.replicate (16 - l.length) 0)[i]? := by
  rw [← hs.slots_eq, Vector.getElem?_toList, Vector.getElem?_eq_getElem hi]

theorem Holds.getElem_live (hs : s.Holds l) {i : Nat} (hi : i < 16) (hl : i < l.length) :
    s.slots[i] = l[i] := by
  have h := hs.getElem?_eq hi
  rw [List.getElem?_append_left hl, List.getElem?_eq_getElem hl] at h
  exact Option.some.inj h

theorem Holds.getElem_dead (hs : s.Holds l) {i : Nat} (hi : i < 16) (hl : l.length ≤ i) :
    s.slots[i] = 0 := by
  have h := hs.getElem?_eq hi
  rw [List.getElem?_append_right hl, List.getElem?_replicate_of_lt (by omega)] at h
  exact Option.some.inj h

theorem Holds.unique (hs : s.Holds l) (ht : t.Holds l) : s = t := by
  have hslots : s.slots.toArray.toList = t.slots.toArray.toList :=
    hs.slots_eq.trans ht.slots_eq.symm
  have hdepth := hs.depth_eq.trans ht.depth_eq.symm
  obtain ⟨ss, sd, _⟩ := s
  obtain ⟨ts, td, _⟩ := t
  obtain rfl : ss = ts := Vector.toArray_inj.1 (Array.toList_inj.1 hslots)
  obtain rfl : sd = td := hdepth
  rfl

theorem Holds.push (hs : s.Holds l) (hl : l.length < 16) (a : Int) :
    ∃ t, s.push a = .ok t ∧ t.Holds (l ++ [a]) := by
  have hd : s.depth < 16 := by rwa [hs.depth_eq]
  obtain ⟨free, hfree⟩ : ∃ free, 16 - l.length = free + 1 := ⟨15 - l.length, by omega⟩
  refine ⟨_, dif_pos hd, ?_, ?_⟩
  · rw [List.length_append, ← hs.depth_eq]
    rfl
  · rw [Vector.toList_set, hs.slots_eq, hs.depth_eq, List.set_append_right _ _ (Nat.le_refl _),
      Nat.sub_self, hfree, List.replicate_succ, List.set_cons_zero, List.length_append,
      show 16 - (l.length + [a].length) = free by simp only [List.length_singleton]; omega,
      List.append_assoc]
    rfl

theorem push_of_full (hd : s.depth = 16) (a : Int) : s.push a = .error .stackOverflow :=
  dif_neg (by omega)

theorem Holds.pop (hs : s.Holds (l ++ [a])) : ∃ t, s.pop = .ok (a, t) ∧ t.Holds l := by
  have hdepth : s.depth = l.length + 1 := hs.depth_eq.trans List.length_append
  have hlt : l.length < 16 := by
    have := s.depth_le
    omega
  have hslots : s.slots.toList = l ++ a :: List.replicate (15 - l.length) 0 := by
    rw [hs.slots_eq, List.append_assoc, List.length_append, List.singleton_append]
    congr 3
    simp only [List.length_singleton]
    omega
  have htop : s.slots[l.length] = a := by
    have hget : s.slots.toList[l.length]? = some a := by
      rw [hslots, List.getElem?_append_right (Nat.le_refl _), Nat.sub_self]
      rfl
    rw [Vector.getElem?_toList, Vector.getElem?_eq_getElem hlt] at hget
    exact Option.some.inj hget
  -- the slot that is popped is cleared, and joins the zeros behind it
  obtain ⟨slots, depth, hle⟩ := s
  obtain rfl : depth = l.length + 1 := hdepth
  refine ⟨⟨slots.set l.length 0, l.length, Nat.le_of_lt hlt⟩, ?_, rfl, ?_⟩
  · rw [pop, dif_neg (Nat.succ_ne_zero _)]
    exact congrArg (fun a => Except.ok (a, _)) htop
  · rw [Vector.toList_set]
    refine (congrArg (List.set · l.length 0) hslots).trans ?_
    rw [List.set_append_right _ _ (Nat.le_refl _), Nat.sub_self, List.set_cons_zero,
      show 16 - l.length = 15 - l.length + 1 by omega, List.replicate_succ]

theorem length_live (s : CallStack) : s.live.length = s.depth := by
  rw [live, List.length_take, Vector.length_toList]
  exact Nat.min_eq_left s.depth_le

theorem push_of_room (hs : s.live.length ≠ 16) (a : Int) : ∃ t, s.push a = .ok t := by
  rw [length_live] at hs
  exact ⟨_, dif_pos (Nat.lt_of_le_of_ne s.depth_le hs)⟩

theorem pop_of_held (hs : s.live.length ≠ 0) : ∃ a t, s.pop = .ok (a, t) := by
  rw [length_live] at hs
  exact ⟨_, _, dif_neg hs⟩

theorem live_of_push (h : s.push a = .ok t) : t.live = s.live ++ [a] := by
  unfold push at h
  split at h
  · next hd =>
    cases h
    rw [live, live, Vector.toList_set, List.take_add_one, List.take_set_of_le (Nat.le_refl _),
      List.getElem?_set_self (by rwa [Vector.length_toList])]
    rfl
  · cases h

theorem live_of_pop (h : s.pop = .ok (a, t)) : s.live = t.live ++ [a] := by
  obtain ⟨slots, depth, hle⟩ := s
  cases depth with
  | zero => cases h
  | succ k =>
    have hk : k < 16 := hle
    cases h
    show slots.toList.take (k + 1) = (slots.set k 0 hk).toList.take k ++ [slots[k]]
    rw [Vector.toList_set, List.take_add_one, List.take_set_of_le (Nat.le_refl _),
      Vector.getElem?_toList, Vector.getElem?_eq_getElem hk]
    rfl

theorem getLast?_live_of_pop (h : s.pop = .ok (a, t)) : s.live.getLast? = some a := by
  rw [live_of_pop h, List.getLast?_concat]

theorem pop_of_empty (hd : s.depth = 0) : s.pop = .error .stackUnderflow :=
  dif_pos hd

end ChipEight.CallStack
