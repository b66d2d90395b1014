import ChipEight.Proofs.Failure
import ChipEight.Proofs.Started

/-! What a cycle that fails leaves behind: what the instruction has done up to its fault, and
nothing of what would have followed it. -/

namespace ChipEight

namespace Machine

def passed (m : Machine) : Machine :=
  { m with dirty := false, current := m.counter, counter := m.counter + 2 }

def storedRows (m : Machine) (op : Opcode) : Nat → Nat → Bool :=
  m.memory.sprite m.index.toNat (4096 - m.index.toNat) (m.originX op) (m.originY op)

/-- What a cycle leaves of a machine when it ends with a fault. -/
inductive Abandoned (m : Machine) : Fault → Machine → Prop
  | fetch (hc : m.counter = 4095) : m.Abandoned (.memoryAccess 4096) { m with dirty := false }
  | decode (hc : m.counter ≠ 4095) (hw : ∀ f : Form, f.template.admits m.word = false) :
      m.Abandoned (.unknownOpcode m.word) { m with dirty := false }
  | call {op : Opcode} (hop : m.Next op) (hform : op.form = .call) (hd : m.stack.depth = 16) :
      m.Abandoned .stackOverflow { m with dirty := false, current := m.counter }
  | ret {op : Opcode} (hop : m.Next op) (hform : op.form = .ret) (hd : m.stack.depth = 0) :
      m.Abandoned .stackUnderflow { m with dirty := false, current := m.counter }
  | waitKey {op : Opcode} (hop : m.Next op) (hform : op.form = .waitKey) :
      m.Abandoned .noKeySource m.passed
  | storeBcd {op : Opcode} {memory : Memory} (hop : m.Next op) (hform : op.form = .storeBcd)
      (hi : 4095 < m.index.toNat + 2) (hsize : memory.cells.size = m.memory.cells.size)
      (hcell : ∀ a, memory.cell a = if m.index.toNat ≤ a ∧ a ≤ 4095 then
        (decimalDigits (m.v op.x)).getD (a - m.index.toNat) 0 else m.memory.cell a) :
      m.Abandoned (.memoryAccess 4096) { m.passed with memory := memory }
  | storeRegs {op : Opcode} {memory : Memory} (hop : m.Next op) (hform : op.form = .storeRegs)
      (hi : 4095 < m.index.toNat + op.x.toNat)
      (hsize : memory.cells.size = m.memory.cells.size)
      (hcell : ∀ a, memory.cell a = if m.index.toNat ≤ a ∧ a ≤ 4095 then
        m.v (BitVec.ofNat 4 (a - m.index.toNat)) else m.memory.cell a) :
      m.Abandoned (.memoryAccess 4096) { m.passed with memory := memory }
  | loadRegs {op : Opcode} {registers : Registers} (hop : m.Next op)
      (hform : op.form = .loadRegs) (hi : 4095 < m.index.toNat + op.x.toNat)
      (hregister : ∀ i, registers.get i = if i.toNat ≤ 4095 - m.index.toNat then
        m.memory.cell (m.index.toNat + i.toNat) else m.v i) :
      m.Abandoned (.memoryAccess 4096) { m.passed with registers := registers }
  | draw {op : Opcode} {screen : Frame} (hop : m.Next op) (hform : op.form = .draw)
      (hn : 1 ≤ op.n.toNat)
      (hi : 4095 < m.index.toNat + min op.n.toNat (32 - (m.v op.y).toNat % 32) - 1)
      (hpixel : ∀ x y, x < 64 ∧ y < 32 →
        screen.isOn x y = (m.screen.isOn x y ^^ m.storedRows op x y)) :
      m.Abandoned (.memoryAccess 4096) { m.passed with
        screen := screen
        registers := m.registers.set Registers.flag
          (if m.screen.meets (m.storedRows op) then 1 else 0) }

variable {m : Machine} {op : Opcode}

theorem cleared_enter_of_setsCounter (hop : op.form.setsCounter = true) :
    ({ m with dirty := false } : Machine).enter op =
      { m with dirty := false, current := m.counter } := by
  rw [enter_eq, hop]
  rfl

theorem cleared_enter_of_not_setsCounter (hop : op.form.setsCounter = false) :
    ({ m with dirty := false } : Machine).enter op = m.passed := by
  rw [enter_eq, hop]
  rfl

theorem getD_of_lt {bs : List Byte} {k : Nat} (hk : k < bs.length) (b c : Byte) :
    bs.getD k b = bs.getD k c := by
  rw [List.getD_eq_getElem?_getD, List.getD_eq_getElem?_getD, List.getElem?_eq_getElem hk]
  rfl

theorem cell_overwrite_past (memory : Memory) (byte : Nat → Byte) {i : Nat} {bs : List Byte}
    (hpast : 4096 ≤ i + bs.length) (hbyte : ∀ k < bs.length, ∀ b, bs.getD k b = byte k) (a : Nat) :
    (memory.overwrite i bs).cell a =
      if i ≤ a ∧ a ≤ 4095 then byte (a - i) else memory.cell a := by
  have hiff : i ≤ a ∧ a < 4096 ↔ i ≤ a ∧ a ≤ 4095 := by omega
  rw [Memory.cell_overwrite]
  simp only [hiff]
  split
  · exact hbyte _ (by omega) _
  · rfl

theorem Abandoned.timers_eq {m' : Machine} {f : Fault} (hm : m.Abandoned f m') :
    m'.dirty = false ∧ m'.delay = m.delay ∧ m'.sound = m.sound := by
  cases hm <;> exact ⟨rfl, rfl, rfl⟩

theorem passed_drawEffect
    (hi : 4095 < m.index.toNat + min op.n.toNat (32 - (m.v op.y).toNat % 32) - 1) :
    m.passed.drawEffect op = { m.passed with
      screen := m.screen.inverted (m.storedRows op)
      registers := m.registers.set Registers.flag
        (if m.screen.meets (m.storedRows op) then 1 else 0) } := by
  have hlt : 4096 < m.index.toNat + m.visibleRows op := by
    unfold visibleRows originY
    omega
  have hrows : min (m.visibleRows op) (4096 - m.index.toNat) = 4096 - m.index.toNat :=
    Nat.min_eq_right (by omega)
  have hbeyond : m.beyond? (m.visibleRows op) = some (.memoryAccess 4096) :=
    beyond?_eq_some_iff.2 ⟨hlt, rfl⟩
  -- more rows are visible than stored, so that the stored ones are all that has been drawn
  unfold drawEffect
  show ({ (m.passed.setV Registers.flag 0).drawn (m.memory.sprite m.index.toNat
    (min (m.visibleRows op) (4096 - m.index.toNat)) (m.originX op) (m.originY op)) with
    dirty := false || (m.beyond? (m.visibleRows op)).isNone } : Machine) = _
  rw [hrows, hbeyond, Option.isNone_some, Bool.or_false, setV_flag_drawn]
  rfl

theorem Faults.abandoned {f : Fault} (hop : m.Next op) (hf : m.Faults op f) :
    m.Abandoned f ((({ m with dirty := false } : Machine).enter op).effect op 0) := by
  have hi : m.index.toNat < 4096 := m.index.isLt
  cases hf with
  | call hform hd =>
    have hfull := CallStack.push_of_full hd m.counter.toNat
    rw [cleared_enter_of_setsCounter (by rw [hform]; rfl)]
    simp only [effect, hform, hfull]
    exact .call hop hform hd
  | ret hform hd =>
    have hempty := CallStack.pop_of_empty hd
    rw [cleared_enter_of_setsCounter (by rw [hform]; rfl)]
    simp only [effect, hform, hempty]
    exact .ret hop hform hd
  | storeBcd hform hlt =>
    rw [cleared_enter_of_not_setsCounter (by rw [hform]; rfl)]
    simp only [effect, hform]
    refine .storeBcd hop hform hlt (Memory.size_overwrite ..) ?_
    refine cell_overwrite_past m.memory (fun k => (decimalDigits (m.v op.x)).getD k 0) ?_ ?_
    · rw [length_decimalDigits]
      exact Nat.le_succ_of_le hlt
    · intro k hk b
      exact getD_of_lt hk b 0
  | storeRegs hform hlt =>
    rw [cleared_enter_of_not_setsCounter (by rw [hform]; rfl)]
    simp only [effect, hform]
    refine .storeRegs hop hform hlt (Memory.size_overwrite ..) ?_
    refine cell_overwrite_past m.memory (fun k => m.v (BitVec.ofNat 4 k)) ?_ ?_
    · rw [List.length_map, List.length_range]
      exact Nat.le_succ_of_le hlt
    · intro k hk b
      rw [List.length_map, List.length_range] at hk
      rw [List.getD_eq_getElem?_getD, List.getElem?_map, List.getElem?_range hk]
      rfl
  | loadRegs hform hlt =>
    rw [cleared_enter_of_not_setsCounter (by rw [hform]; rfl)]
    simp only [effect, hform]
    refine .loadRegs hop hform hlt fun i => ?_
    have hiff : i.toNat < op.x.toNat + 1 ∧ m.index.toNat + i.toNat < 4096 ↔
        i.toNat ≤ 4095 - m.index.toNat := by omega
    refine (m.registers.get_loaded m.memory m.index.toNat (op.x.toNat + 1) i).trans ?_
    simp only [hiff]
    rfl
  | draw hform hn hlt =>
    rw [cleared_enter_of_not_setsCounter (by rw [hform]; rfl)]
    simp only [effect, hform]
    rw [passed_drawEffect hlt]
    exact .draw hop hform hn hlt fun x y hxy => m.screen.isOn_inverted _ hxy

end Machine

namespace Session

variable {s s' : Session} {h : Host} {f : Fault}

theorem awaitKey_fault (ha : SessionM.awaitKey s = .error (.fault f) s') :
    f = .noKeySource ∧ s' = s := by
  cases awaitKey_error_iff.1 ⟨_, ha⟩ with
  | absent hs =>
    unfold SessionM.awaitKey at ha
    rw [hs] at ha
    cases ha
    exact ⟨rfl, rfl⟩

/-- A cycle that ends with a fault has not come to the timers or to the renderer, and leaves the
machine as the part of the instruction that was carried out has made it. -/
theorem left_by_fault (hs : cycle h s = .error (.fault f) s') :
    s'.machine.dirty = false ∧ s'.machine.delay = s.machine.delay ∧
      s'.machine.sound = s.machine.sound ∧
      s' = { s with machine := s'.machine, printed := s'.printed } ∧
      s.machine.Abandoned f s'.machine := by
  have habandoned : s.machine.Abandoned f s'.machine ∧
      s' = { s with machine := s'.machine, printed := s'.printed } := by
    cases cycle_error_iff.1 hs with
    | fetch hc => exact ⟨.fetch hc, rfl⟩
    | decode hc hd =>
      obtain ⟨rfl, hw⟩ := decode_eq_error_iff.1 hd
      refine ⟨?_, ?_⟩
      · rw [announced, trace_machine]
        exact .decode hc hw
      · rw [announced, trace_eq]
        rfl
    | answer hc hd ha =>
      obtain ⟨hform, hkey⟩ := answerTo_error ha
      obtain ⟨rfl, rfl⟩ := awaitKey_fault hkey
      refine ⟨?_, ?_⟩
      · rw [begun_machine, Machine.cleared_enter_of_not_setsCounter (by rw [hform]; rfl)]
        exact .waitKey (Machine.next_iff.2 ⟨hc, hd⟩) hform
      · rw [begun, announced, trace_eq]
        rfl
    | perform hc hd ha hf =>
      rw [fault?_of_answered ha] at hf
      have hfaults := Machine.fault?_eq_some_iff.1 hf
      rw [answered_of_faults hfaults] at ha
      cases ha
      refine ⟨?_, ?_⟩
      · rw [affected, onMachine_machine, begun_machine]
        exact hfaults.abandoned (Machine.next_iff.2 ⟨hc, hd⟩)
      · rw [affected, begun, announced, trace_eq]
        rfl
  obtain ⟨hmachine, hrest⟩ := habandoned
  obtain ⟨hdirty, hdelay, hsound⟩ := hmachine.timers_eq
  exact ⟨hdirty, hdelay, hsound, hrest, hmachine⟩

def storing : Session :=
  started .absent [0xAF, 0xFF, 0xF1, 0x55]

theorem left_by_store_at_last_address :
    ∃ s s', s.Reachable ∧ cycle .quiet s = .error (.fault (.memoryAccess 4096)) s' ∧
      s'.machine.dirty = false ∧ s.machine.Abandoned (.memoryAccess 4096) s'.machine := by
  have hcell : ∀ i (hi : i < 4), storing.machine.memory.cell (512 + i) =
      ([0xAF, 0xFF, 0xF1, 0x55] : List Byte)[i] :=
    fun i hi => started_cell .absent (by decide) hi
  have hpoint : storing.machine.Next ⟨0xAFFF, .setAddress⟩ :=
    started_next .absent (by decide) (by decide) rfl
  have hcycle := (completes_of_next (h := .quiet) hpoint nofun nofun rfl).cycle_eq
  generalize hs₁ : (storing.begun .quiet ⟨0xAFFF, .setAddress⟩).concluded .quiet
    ⟨0xAFFF, .setAddress⟩ 0 = s₁ at hcycle
  have hreachable : s₁.Reachable := by
    have hstoring : storing.Reachable := started_reachable _ _
    rw [← after_cycle hcycle]
    exact hstoring.after _
  have hstore : s₁.machine.Next ⟨0xF155, .storeRegs⟩ := by
    have hword : s₁.machine.word = (0xF1 : Byte) ++ (0x55 : Byte) := by
      rw [← hs₁]
      exact congr (congrArg _ (hcell 2 (by decide))) (hcell 3 (by decide))
    refine Machine.next_iff.2 ⟨?_, ?_⟩
    · rw [← hs₁]
      nofun
    · rw [hword]
      rfl
  have hindex : s₁.machine.index = 0xFFF := by
    rw [← hs₁]
    rfl
  have hfaults : s₁.machine.Faults ⟨0xF155, .storeRegs⟩ (.memoryAccess 4096) := by
    refine .storeRegs rfl ?_
    rw [hindex]
    decide
  obtain ⟨s', hs'⟩ := (Fails.perform hstore hfaults).halts .quiet
  obtain ⟨hdirty, -, -, -, habandoned⟩ := left_by_fault hs'.cycle_eq
  exact ⟨s₁, s', hreachable, hs'.cycle_eq, hdirty, habandoned⟩

end Session

end ChipEight
