import ChipEight.Proofs.Shown

/-! A sprite on the screen: which pixels it inverts, wherever its origin lies, and what else is changed by
drawing it. -/

namespace ChipEight

theorem Screen.isOn_blank {w h : Int} (x y : Nat) : (blank : Screen w h).isOn x y = false := by
  unfold Grid.isOn Grid.get? blank Grid.fill
  split <;> simp

namespace Machine

def sprite (m : Machine) (op : Opcode) : Nat → Nat → Bool :=
  m.memory.sprite m.index.toNat op.n.toNat ((m.v op.x).toNat % 64) ((m.v op.y).toNat % 32)

/-- Every row of a sprite that lies above the bottom edge lies in the memory. -/
def SpriteStored (m : Machine) (op : Opcode) : Prop :=
  ∀ row < op.n.toNat, (m.v op.y).toNat % 32 + row < 32 → m.index.toNat + row < 4096

def Collides (m : Machine) (op : Opcode) : Prop :=
  ∃ px py, (px < 64 ∧ py < 32) ∧ m.screen.isOn px py = true ∧ m.sprite op px py = true

structure Draws (m : Machine) (op : Opcode) (m' : Machine) : Prop where
  pixel_eq : ∀ px py, px < 64 ∧ py < 32 →
    m'.screen.isOn px py = (m.screen.isOn px py ^^ m.sprite op px py)
  flag_set : m.Collides op → m'.v Registers.flag = 1
  flag_cleared : ¬ m.Collides op → m'.v Registers.flag = 0
  register_eq : ∀ i, i ≠ Registers.flag → m'.v i = m.v i
  rest_eq : m' = { m with
    screen := m'.screen
    registers := m'.registers
    dirty := true
    counter := m.counter + 2
    current := m.counter }

variable {m : Machine} {op : Opcode}

theorem sprite_visibleRows {px py : Nat} (hpy : py < 32) :
    m.memory.sprite m.index.toNat (m.visibleRows op) (m.originX op) (m.originY op) px py =
      m.sprite op px py := by
  have hedge : py < m.originY op + m.visibleRows op ↔ py < m.originY op + op.n.toNat := by
    unfold visibleRows
    omega
  simp only [Memory.sprite, hedge]
  rfl

theorem SpriteStored.fault?_eq_none (hstored : m.SpriteStored op) (hop : op.form = .draw) :
    m.fault? op = none := by
  have hi : m.index.toNat < 4096 := m.index.isLt
  have hvisible : ¬ 4096 < m.index.toNat + m.visibleRows op := by
    intro hlt
    have hlast := hstored (m.visibleRows op - 1)
    unfold visibleRows originY at hlt hlast
    omega
  simp only [fault?, hop, beyond?, if_neg hvisible]

theorem SpriteStored.drawEffect_eq (hstored : m.SpriteStored op) (hop : op.form = .draw) :
    m.drawEffect op = { m with
      screen := m.screen.inverted (m.sprite op)
      registers := m.registers.set Registers.flag (if m.screen.meets (m.sprite op) then 1 else 0)
      dirty := true } := by
  have hbeyond : m.beyond? (m.visibleRows op) = none := by
    simpa only [fault?, hop] using hstored.fault?_eq_none hop
  have hrows : min (m.visibleRows op) (4096 - m.index.toNat) = m.visibleRows op := by
    unfold beyond? at hbeyond
    split at hbeyond
    · cases hbeyond
    · omega
  have hdrawn : (m.setV Registers.flag 0).drawn (m.memory.sprite m.index.toNat (m.visibleRows op)
      (m.originX op) (m.originY op)) = (m.setV Registers.flag 0).drawn (m.sprite op) :=
    drawn_congr _ fun px py hxy => sprite_visibleRows hxy.2
  rw [drawEffect, hrows, hdrawn, setV_flag_drawn, hbeyond, Option.isNone_none, Bool.or_true]

theorem meets_sprite_iff : m.screen.meets (m.sprite op) = true ↔ m.Collides op :=
  Grid.meets_iff

theorem SpriteStored.draws (hstored : m.SpriteStored op) (hop : op.form = .draw) (answer : Int) :
    m.Draws op ((m.enter op).effect op answer) := by
  have hentered : m.enter op = { m with current := m.counter, counter := m.counter + 2 } := by
    rw [enter_eq, hop]
    rfl
  have hbegun : (m.enter op).SpriteStored op := by
    rw [hentered]
    exact hstored
  have heffect : (m.enter op).effect op answer = { m with
      screen := m.screen.inverted (m.sprite op)
      registers := m.registers.set Registers.flag (if m.screen.meets (m.sprite op) then 1 else 0)
      dirty := true
      counter := m.counter + 2
      current := m.counter } := by
    simp only [effect, hop, hbegun.drawEffect_eq hop]
    rw [hentered]
    rfl
  rw [heffect]
  refine ⟨fun px py hxy => m.screen.isOn_inverted _ hxy, fun hcollides => ?_, fun hclear => ?_,
    fun i hi => ?_, rfl⟩
  · refine (Bank.get_set ..).trans ?_
    rw [if_pos rfl, if_pos (meets_sprite_iff.2 hcollides)]
  · refine (Bank.get_set ..).trans ?_
    rw [if_pos rfl, if_neg fun hmeets => hclear (meets_sprite_iff.1 hmeets)]
  · exact (Bank.get_set ..).trans (if_neg hi)

end Machine

/-- Drawing a sprite inverts the pixels of the screen in which it has one, tells by the flag whether one of
them was on, and changes nothing else. -/
theorem draw_inverts_sprite (h : Host) {s : Session} {op : Opcode} (hop : op.form = .draw)
    (hstored : s.machine.SpriteStored op) :
    ∃ s', execute h op s = .ok () s' ∧ s.machine.Draws op s'.machine ∧
      s' = { s with machine := s'.machine, printed := s'.printed } := by
  have hanswer : answerTo h op.form (s.onMachine (·.enter op)) =
      .ok 0 (s.onMachine (·.enter op)) :=
    answerTo_of_ne (by simp [hop]) (by simp [hop])
  have hfault : (s.machine.enter op).fault? op = none := by
    rw [← hstored.fault?_eq_none hop]
    exact Machine.fault?_congr op (Machine.enter_registers ..) (Machine.enter_index ..)
      (Machine.enter_stack ..)
  refine ⟨_, execute_of_none hanswer hfault, ?_, ?_⟩
  · rw [Session.trace_machine]
    exact hstored.draws hop 0
  · rw [Session.trace_eq]
    rfl

def drawingByFlag : Session :=
  .started .absent [0xDF, 0xF5]

theorem glyph_drawn_by_flag :
    ∃ s', (⟨0xDFF5, .draw⟩ : Opcode).form = .draw ∧
      drawingByFlag.machine.SpriteStored ⟨0xDFF5, .draw⟩ ∧
      execute .quiet ⟨0xDFF5, .draw⟩ drawingByFlag = .ok () s' ∧
      drawingByFlag.machine.Draws ⟨0xDFF5, .draw⟩ s'.machine ∧
      s'.machine.screen.isOn 0 0 = true ∧ s'.machine.screen.isOn 4 0 = false ∧
      s'.machine.v Registers.flag = 0 := by
  have hmachine : drawingByFlag.machine.index = 0 ∧ drawingByFlag.machine.screen = .blank ∧
      drawingByFlag.machine.registers = .zero := by
    rw [drawingByFlag, Session.started_eq .absent (by decide)]
    exact ⟨rfl, rfl, rfl⟩
  obtain ⟨hindex, hscreen, hregisters⟩ := hmachine
  have hstored : drawingByFlag.machine.SpriteStored ⟨0xDFF5, .draw⟩ := by
    intro row hrow _
    have hlt : row < 5 := hrow
    rw [hindex]
    exact Nat.lt_of_lt_of_le (Nat.add_lt_add_left hlt 0) (by decide)
  obtain ⟨s', hs', hdraws, -⟩ := draw_inverts_sprite .quiet rfl hstored
  have hoff : ∀ px py, drawingByFlag.machine.screen.isOn px py = false := by
    intro px py
    rw [hscreen, Screen.isOn_blank]
  have hglyph : drawingByFlag.machine.memory.cell 0 = 0xF0 := by
    rw [drawingByFlag, Session.started_memory .absent (by decide), if_pos (by decide)]
    rfl
  have hbit : ∀ px < 8, drawingByFlag.machine.sprite ⟨0xDFF5, .draw⟩ px 0 =
      (0xF0 : Byte).getLsbD (7 - px) := by
    intro px hpx
    have hv : ∀ i, drawingByFlag.machine.v i = 0 := by
      intro i
      rw [Machine.v, hregisters]
      exact Bank.get_fill ..
    have hin : 0 ≤ px ∧ px < 0 + 8 ∧ 0 ≤ 0 ∧ 0 < 0 + 5 := by omega
    rw [Machine.sprite, hv, hv, hindex]
    show (decide (0 ≤ px ∧ px < 0 + 8 ∧ 0 ≤ 0 ∧ 0 < 0 + 5) &&
      (drawingByFlag.machine.memory.cell 0).getLsbD (7 - px)) = _
    rw [decide_eq_true hin, hglyph, Bool.true_and]
  refine ⟨s', rfl, hstored, hs', hdraws, ?_, ?_, hdraws.flag_cleared ?_⟩
  · rw [hdraws.pixel_eq 0 0 (by decide), hoff, hbit 0 (by decide)]
    decide
  · rw [hdraws.pixel_eq 4 0 (by decide), hoff, hbit 4 (by decide)]
    decide
  · rintro ⟨px, py, -, hon, -⟩
    rw [hoff] at hon
    cases hon

end ChipEight
