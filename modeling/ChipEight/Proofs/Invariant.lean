import ChipEight.Proofs.Calls
import ChipEight.Proofs.Footprint
import ChipEight.Proofs.Images

/-! What holds of a machine whatever has been asked of it, and however that has ended. -/

namespace ChipEight

open Actions

namespace Machine

/-- The part of the invariant that the types leave open: the memory has not grown, and the stack
holds addresses and nothing beyond them. -/
structure Sound (m : Machine) : Prop where
  memory_size : m.memory.cells.size = 4096
  stack_holds : ∃ l, m.stack.Holds l ∧ ∀ a ∈ l, 0 ≤ a ∧ a ≤ 4095

namespace Sound

variable {m m' : Machine}

theorem of_eq (hm : m.Sound) (hmemory : m'.memory = m.memory) (hstack : m'.stack = m.stack) :
    m'.Sound := by
  obtain ⟨hsize, hl⟩ := hm
  exact ⟨hmemory ▸ hsize, hstack ▸ hl⟩

theorem touched (hm : m.Sound) (h : m.Touched m') : m'.Sound := by
  obtain ⟨_, _, rfl⟩ := h
  exact hm.of_eq rfl rfl

theorem fresh : Machine.fresh.Sound where
  memory_size := Array.size_replicate
  stack_holds := ⟨[], CallStack.empty_holds, by simp⟩

theorem enter (hm : m.Sound) (op : Opcode) : (m.enter op).Sound :=
  hm.of_eq (m.enter_memory op) (m.enter_stack op)

theorem effect (hm : m.Sound) (op : Opcode) (answer : Int) : (m.effect op answer).Sound := by
  refine ⟨(m.effect_footprint op answer).memory_size.trans hm.memory_size, ?_⟩
  obtain ⟨l, hl, haddresses⟩ := hm.stack_holds
  -- only calls and returns touch the stack, each unless it faults
  by_cases hcall : op.form = .call
  · obtain hlt | heq := Nat.lt_or_eq_of_le hl.length_le
    · obtain ⟨stack, hstack, heffect⟩ := m.effect_of_call op answer hcall hl hlt
      have hcounter : m.counter.toNat < 4096 := m.counter.isLt
      rw [heffect]
      refine ⟨_, hstack, fun a ha => ?_⟩
      rcases List.mem_append.1 ha with ha | ha
      · exact haddresses a ha
      · rw [List.mem_singleton.1 ha]
        omega
    · have hfull := CallStack.push_of_full (hl.depth_eq.trans heq) m.counter.toNat
      refine ⟨l, ?_, haddresses⟩
      simpa only [Machine.effect, hcall, hfull] using hl
  · by_cases hret : op.form = .ret
    · obtain rfl | ⟨l, a, rfl⟩ := l.eq_nil_or_concat
      · have hempty := CallStack.pop_of_empty hl.depth_eq
        refine ⟨[], ?_, haddresses⟩
        simpa only [Machine.effect, hret, hempty] using hl
      · rw [List.concat_eq_append] at hl haddresses
        obtain ⟨stack, hstack, heffect⟩ := m.effect_of_ret op answer hret hl
        rw [heffect]
        exact ⟨l, hstack, fun b hb => haddresses b (List.mem_append_left _ hb)⟩
    · rw [m.effect_stack op answer hcall hret]
      exact ⟨l, hl, haddresses⟩

theorem overlay (hm : m.Sound) (image : Array Byte) {a : Nat} (h : a + image.size ≤ 4096)
    (counter : Address) :
    Machine.Sound { m with memory := m.memory.overlay image a, counter := counter } := by
  rw [← hm.memory_size] at h
  exact ⟨(m.memory.size_overlay h).trans hm.memory_size, hm.stack_holds⟩

theorem boot (hm : m.Sound) : m.boot.Sound :=
  hm.overlay Font.bytes.toArray (a := Memory.fontStart) (by decide) _

theorem load (hm : m.Sound) {program : Array Byte} (h : m.load program = .ok m') : m'.Sound := by
  unfold Machine.load Memory.load at h
  split at h
  · cases h
  · next hfits =>
    cases h
    exact hm.overlay program (a := Memory.programStart) (by omega) m.counter

end Sound

/-- A machine every part of which has its size, and every number in it its range. -/
structure WellFormed (m : Machine) : Prop where
  memory_size : m.memory.cells.size = 4096
  cell_range : ∀ b ∈ m.memory.cells.toList, b.toNat ≤ 255
  register_count : m.registers.toList.length = 16
  register_range : ∀ b ∈ m.registers.toList, b.toNat ≤ 255
  counter_range : m.counter.toNat ≤ 4095
  index_range : m.index.toNat ≤ 4095
  current_range : m.current.toNat ≤ 4095
  depth_range : m.stack.depth ≤ 16
  slot_count : m.stack.slots.toList.length = 16
  live_range : ∀ (i : Nat) (_ : i < 16), i < m.stack.depth →
    0 ≤ m.stack.slots[i] ∧ m.stack.slots[i] ≤ 4095
  dead_zero : ∀ (i : Nat) (_ : i < 16), m.stack.depth ≤ i → m.stack.slots[i] = 0
  delay_range : m.delay.value.toNat ≤ 255
  sound_range : m.sound.value.toNat ≤ 255
  pixel_count : m.screen.cells.toList.length = 64 * 32
  key_count : m.keypad.held.toList.length = 16

theorem Sound.wellFormed {m : Machine} (hm : m.Sound) : m.WellFormed := by
  have hbyte : ∀ b : Byte, b.toNat ≤ 255 := fun b => Nat.le_of_lt_succ b.isLt
  have haddress : ∀ a : Address, a.toNat ≤ 4095 := fun a => Nat.le_of_lt_succ a.isLt
  obtain ⟨hsize, l, hl, hrange⟩ := hm
  exact {
    memory_size := hsize
    cell_range := fun b _ => hbyte b
    register_count := Vector.length_toList
    register_range := fun b _ => hbyte b
    counter_range := haddress _
    index_range := haddress _
    current_range := haddress _
    depth_range := m.stack.depth_le
    slot_count := Vector.length_toList
    live_range := fun i hi hlive => by
      have hlen : i < l.length := hl.depth_eq ▸ hlive
      rw [hl.getElem_live hi hlen]
      exact hrange _ (List.getElem_mem hlen)
    dead_zero := fun i hi hdead => hl.getElem_dead hi (hl.depth_eq ▸ hdead)
    delay_range := hbyte _
    sound_range := hbyte _
    pixel_count := Vector.length_toList
    key_count := Vector.length_toList }

theorem sound_invariant : Invariant Sound where
  touched := Sound.touched
  timers := fun _ _ hm => hm.of_eq rfl rfl
  boot := Sound.boot
  load := fun hm h => hm.load h
  dirty := fun _ hm => hm.of_eq rfl rfl
  enter := fun op hm => hm.enter op
  effect := fun op answer hm => hm.effect op answer

end Machine

namespace Session

theorem sound_after (source : KeySource) (calls : List (Host × Call)) :
    ((fresh source).after calls).machine.Sound :=
  Machine.sound_invariant.after_keeps Machine.Sound.fresh calls

theorem Reachable.sound {s : Session} (hs : s.Reachable) : s.machine.Sound := by
  obtain ⟨source, calls, rfl⟩ := hs
  exact sound_after source calls

/-- Whatever the host calls, and however its calls end, they leave a well-formed machine. -/
theorem wellFormed_after (source : KeySource) (calls : List (Host × Call)) :
    ((fresh source).after calls).machine.WellFormed :=
  Machine.Sound.wellFormed (sound_after source calls)

end Session

end ChipEight
