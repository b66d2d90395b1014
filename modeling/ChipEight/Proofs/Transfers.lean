import ChipEight.Proofs.Identities

/-! Registers that are stored in the memory and loaded again, also when other instructions have been executed
meanwhile, and the decimal digits of a register. -/

namespace ChipEight

theorem Memory.cell_overwrite_add (m : Memory) {a k : Nat} {bs : List Byte} (hk : k < bs.length)
    (ha : a + k < 4096) : (m.overwrite a bs).cell (a + k) = bs[k] := by
  rw [cell_overwrite, if_pos ⟨Nat.le_add_right .., ha⟩, Nat.add_sub_cancel_left,
    List.getD_eq_getElem?_getD, List.getElem?_eq_getElem hk, Option.getD_some]

namespace Machine

structure StoresRegisters (m : Machine) (last : Nibble) (m' : Machine) : Prop where
  stored_eq : ∀ i : Nibble, i.toNat ≤ last.toNat →
    m'.memory.cell (m.index.toNat + i.toNat) = m.v i
  cell_eq : ∀ a, ¬ (m.index.toNat ≤ a ∧ a ≤ m.index.toNat + last.toNat) →
    m'.memory.cell a = m.memory.cell a
  size_eq : m'.memory.cells.size = m.memory.cells.size
  rest_eq : m' = { m with
    memory := m'.memory
    counter := m.counter + 2
    current := m.counter }

structure LoadsRegisters (m : Machine) (last : Nibble) (m' : Machine) : Prop where
  loaded_eq : ∀ i : Nibble, i.toNat ≤ last.toNat →
    m'.v i = m.memory.cell (m.index.toNat + i.toNat)
  register_eq : ∀ i : Nibble, last.toNat < i.toNat → m'.v i = m.v i
  rest_eq : m' = { m with
    registers := m'.registers
    counter := m.counter + 2
    current := m.counter }

structure StoresDigits (m : Machine) (x : Nibble) (hundreds tens ones : Byte) (m' : Machine) :
    Prop where
  digits_le : hundreds.toNat ≤ 9 ∧ tens.toNat ≤ 9 ∧ ones.toNat ≤ 9
  value_eq : 100 * hundreds.toNat + 10 * tens.toNat + ones.toNat = (m.v x).toNat
  hundreds_eq : m'.memory.cell m.index.toNat = hundreds
  tens_eq : m'.memory.cell (m.index.toNat + 1) = tens
  ones_eq : m'.memory.cell (m.index.toNat + 2) = ones
  cell_eq : ∀ a, ¬ (m.index.toNat ≤ a ∧ a ≤ m.index.toNat + 2) →
    m'.memory.cell a = m.memory.cell a
  rest_eq : m' = { m with
    memory := m'.memory
    counter := m.counter + 2
    current := m.counter }

variable {m m₁ m₂ : Machine} {op : Opcode}

theorem storesRegisters_effect (hop : op.form = .storeRegs)
    (hi : m.index.toNat + op.x.toNat ≤ 4095) (answer : Int) :
    m.StoresRegisters op.x ((m.enter op).effect op answer) := by
  have hfootprint := m.entered_footprint op answer
  refine ⟨fun i hle => ?_, fun a ha => hfootprint.cell_eq a ?_, hfootprint.memory_size, ?_⟩
  · have hlength : i.toNat <
        ((List.range (op.x.toNat + 1)).map fun k => m.v (BitVec.ofNat 4 k)).length := by
      rw [List.length_map, List.length_range]
      omega
    simp only [effect, hop, enter_memory, enter_index, enter_v]
    rw [Memory.cell_overwrite_add _ hlength (by omega), List.getElem_map, List.getElem_range,
      BitVec.ofNat_toNat, BitVec.setWidth_eq]
  · simpa only [Stores, hop] using ha
  · rw [enter_of_not_setsCounter (by rw [hop]; rfl)]
    simp only [effect, hop]

theorem loadsRegisters_effect (hop : op.form = .loadRegs)
    (hi : m.index.toNat + op.x.toNat ≤ 4095) (answer : Int) :
    m.LoadsRegisters op.x ((m.enter op).effect op answer) := by
  refine ⟨fun i hle => ?_, fun i hlt => ?_, ?_⟩
  · simp only [effect, hop, v, enter_memory, enter_index, enter_registers]
    rw [Registers.get_loaded, if_pos (by omega)]
  · simp only [effect, hop, v, enter_memory, enter_index, enter_registers]
    rw [Registers.get_loaded, if_neg (by omega)]
  · rw [enter_of_not_setsCounter (by rw [hop]; rfl)]
    simp only [effect, hop]

theorem storesDigits_effect (hop : op.form = .storeBcd) (hi : m.index.toNat ≤ 4093)
    (answer : Int) :
    m.StoresDigits op.x (m.v op.x / 100) (m.v op.x / 10 % 10) (m.v op.x % 10)
      ((m.enter op).effect op answer) := by
  have hfootprint := m.entered_footprint op answer
  have hdigit : ∀ k (hk : k < 3),
      ((m.enter op).effect op answer).memory.cell (m.index.toNat + k) =
        (decimalDigits (m.v op.x))[k] := by
    intro k hk
    simp only [effect, hop, enter_memory, enter_index, enter_v]
    exact Memory.cell_overwrite_add _ hk (by omega)
  have hvalues := map_toNat_decimalDigits (m.v op.x)
  simp only [decimalDigits, List.map_cons, List.map_nil, List.cons.injEq, and_true] at hvalues
  obtain ⟨hhundreds, htens, hones⟩ := hvalues
  have hbyte := (m.v op.x).isLt
  refine ⟨by omega, by omega, hdigit 0 (by decide), hdigit 1 (by decide), hdigit 2 (by decide),
    fun a ha => hfootprint.cell_eq a ?_, ?_⟩
  · simpa only [Stores, hop] using ha
  · rw [enter_of_not_setsCounter (by rw [hop]; rfl)]
    simp only [effect, hop]

theorem LoadsRegisters.stored_back {last : Nibble} (hload : m.LoadsRegisters last m₁)
    (hstore : m₁.StoresRegisters last m₂) : m₂.memory = m.memory := by
  have hmemory : m₁.memory = m.memory := by rw [hload.rest_eq]
  have hindex : m₁.index = m.index := by rw [hload.rest_eq]
  apply Memory.ext_cell
  · rw [hstore.size_eq, hmemory]
  intro a
  by_cases ha : m₁.index.toNat ≤ a ∧ a ≤ m₁.index.toNat + last.toNat
  · obtain ⟨k, rfl⟩ : ∃ k, a = m₁.index.toNat + k := Nat.exists_eq_add_of_le ha.1
    have hlast : last.toNat < 16 := last.isLt
    have hk : (BitVec.ofNat 4 k).toNat = k := by
      rw [BitVec.toNat_ofNat, Nat.mod_eq_of_lt (by omega)]
    have hle : (BitVec.ofNat 4 k).toNat ≤ last.toNat := by omega
    calc m₂.memory.cell (m₁.index.toNat + k)
        = m₂.memory.cell (m₁.index.toNat + (BitVec.ofNat 4 k).toNat) := by rw [hk]
      _ = m₁.v (BitVec.ofNat 4 k) := hstore.stored_eq _ hle
      _ = m.memory.cell (m.index.toNat + (BitVec.ofNat 4 k).toNat) := hload.loaded_eq _ hle
      _ = m.memory.cell (m₁.index.toNat + k) := by rw [hk, hindex]
  · rw [hstore.cell_eq a ha, hmemory]

end Machine

def ExecuteStep (s : Session) (step : Session × Opcode) (s' : Session) : Prop :=
  step.1 = s ∧ ∃ h, execute h step.2 s = .ok () s'

def ExecuteRun : Session → List (Session × Opcode) → Session → Prop :=
  Chain ExecuteStep

theorem ExecuteRun.cell_eq {s s' : Session} {run : List (Session × Opcode)}
    (hrun : ExecuteRun s run s') {a : Nat}
    (ha : ∀ step ∈ run, ¬ step.1.machine.Stores step.2 a) :
    s'.machine.memory.cell a = s.machine.memory.cell a := by
  refine hrun.view_eq (fun t => t.machine.memory.cell a) fun step hmem t t' hstep => ?_
  obtain ⟨rfl, h, hexecuted⟩ := hstep
  exact (execute_footprint hexecuted).machine.cell_eq a (ha step hmem)

def Spares (run : List (Session × Opcode)) (low high : Nat) : Prop :=
  ∀ a, low ≤ a → a ≤ high → ∀ step ∈ run, ¬ step.1.machine.Stores step.2 a

/-- The registers of the first session are kept in the memory of the second one. Whatever is executed without
storing over them, they are loaded from there when the index has been set back. -/
def Session.Keeping (s : Session) (last : Nibble) (s₁ : Session) : Prop :=
  ∀ {run : List (Session × Opcode)} {s₂ : Session}, ExecuteRun s₁ run s₂ →
    Spares run s.machine.index.toNat (s.machine.index.toNat + last.toNat) →
    ∀ {t : Session}, t.machine.memory = s₂.machine.memory → t.machine.index = s.machine.index →
      ∀ (h : Host) {op : Opcode}, op.form = .loadRegs → op.x = last →
        ∃ t', execute h op t = .ok () t' ∧
          (∀ i, i.toNat ≤ last.toNat → t'.machine.v i = s.machine.v i) ∧
          ∀ i, last.toNat < i.toNat → t'.machine.v i = t.machine.v i

section Executed

variable (h : Host) {s s₁ : Session} {op : Opcode}

theorem execute_within {count : Nat} (hform : op.form ∈ [.storeBcd, .storeRegs, .loadRegs])
    (hf : s.machine.fault? op = s.machine.beyond? count)
    (hi : s.machine.index.toNat + count ≤ 4096) :
    ∃ s', execute h op s = .ok () s' ∧ s'.machine = (s.machine.enter op).effect op 0 := by
  have hrand : op.form ≠ .rand := fun hop => absurd hform (by simp [hop])
  have hkey : op.form ≠ .waitKey := fun hop => absurd hform (by simp [hop])
  have hnone : s.machine.fault? op = none := hf.trans (if_neg (Nat.not_lt_of_le hi))
  obtain ⟨s', hs', hmachine, -⟩ := execute_unasked h hrand hkey hnone
  exact ⟨s', hs', hmachine⟩

theorem execute_storesRegisters (hop : op.form = .storeRegs)
    (hi : s.machine.index.toNat + op.x.toNat ≤ 4095) :
    ∃ s', execute h op s = .ok () s' ∧ s.machine.StoresRegisters op.x s'.machine := by
  have hf : s.machine.fault? op = s.machine.beyond? (op.x.toNat + 1) := by
    simp only [Machine.fault?, hop]
  obtain ⟨s', hs', hmachine⟩ := execute_within h (by simp [hop]) hf (by omega)
  refine ⟨s', hs', ?_⟩
  rw [hmachine]
  exact Machine.storesRegisters_effect hop hi 0

theorem execute_loadsRegisters (hop : op.form = .loadRegs)
    (hi : s.machine.index.toNat + op.x.toNat ≤ 4095) :
    ∃ s', execute h op s = .ok () s' ∧ s.machine.LoadsRegisters op.x s'.machine := by
  have hf : s.machine.fault? op = s.machine.beyond? (op.x.toNat + 1) := by
    simp only [Machine.fault?, hop]
  obtain ⟨s', hs', hmachine⟩ := execute_within h (by simp [hop]) hf (by omega)
  refine ⟨s', hs', ?_⟩
  rw [hmachine]
  exact Machine.loadsRegisters_effect hop hi 0

theorem execute_storesDigits (hop : op.form = .storeBcd) (hi : s.machine.index.toNat ≤ 4093) :
    ∃ hundreds tens ones s', execute h op s = .ok () s' ∧
      s.machine.StoresDigits op.x hundreds tens ones s'.machine := by
  have hf : s.machine.fault? op = s.machine.beyond? 3 := by simp only [Machine.fault?, hop]
  obtain ⟨s', hs', hmachine⟩ := execute_within h (by simp [hop]) hf (by omega)
  refine ⟨s.machine.v op.x / 100, s.machine.v op.x / 10 % 10, s.machine.v op.x % 10, s', hs', ?_⟩
  rw [hmachine]
  exact Machine.storesDigits_effect hop hi 0

theorem keeping_of_storesRegisters {last : Nibble}
    (hi : s.machine.index.toNat + last.toNat ≤ 4095)
    (hstores : s.machine.StoresRegisters last s₁.machine) : s.Keeping last s₁ := by
  rintro run s₂ hrun hspared t hmemory hindex h op hop rfl
  obtain ⟨t', ht', hloads⟩ := execute_loadsRegisters h (s := t) hop (hindex ▸ hi)
  refine ⟨t', ht', fun i hle => ?_, hloads.register_eq⟩
  rw [hloads.loaded_eq i hle, hmemory, hindex, ← hstores.stored_eq i hle]
  exact hrun.cell_eq (hspared _ (Nat.le_add_right ..) (Nat.add_le_add_left hle _))

theorem loaded_then_stored {load store : Opcode} (hload : load.form = .loadRegs)
    (hstore : store.form = .storeRegs) (hx : store.x = load.x)
    (hi : s.machine.index.toNat + load.x.toNat ≤ 4095) :
    ∃ s₁ s₂, execute h load s = .ok () s₁ ∧ execute h store s₁ = .ok () s₂ ∧
      s₂.machine.memory = s.machine.memory := by
  obtain ⟨s₁, hs₁, hloads⟩ := execute_loadsRegisters h hload hi
  have hindex : s₁.machine.index = s.machine.index := by rw [hloads.rest_eq]
  obtain ⟨s₂, hs₂, hstores⟩ := execute_storesRegisters h (s := s₁) hstore (by rwa [hx, hindex])
  rw [hx] at hstores
  exact ⟨s₁, s₂, hs₁, hs₂, hloads.stored_back hstores⟩

theorem digits_then_loaded {load : Opcode} (hop : op.form = .storeBcd)
    (hload : load.form = .loadRegs) (hx : load.x = 2) (hi : s.machine.index.toNat ≤ 4093) :
    ∃ hundreds tens ones s₁ s₂, execute h op s = .ok () s₁ ∧
      s.machine.StoresDigits op.x hundreds tens ones s₁.machine ∧
      execute h load s₁ = .ok () s₂ ∧ s₂.machine.v 0 = hundreds ∧ s₂.machine.v 1 = tens ∧
      s₂.machine.v 2 = ones := by
  obtain ⟨hundreds, tens, ones, s₁, hs₁, hdigits⟩ := execute_storesDigits h hop hi
  have hindex : s₁.machine.index = s.machine.index := by rw [hdigits.rest_eq]
  have hlast : load.x.toNat = 2 := by rw [hx]; rfl
  obtain ⟨s₂, hs₂, hloads⟩ := execute_loadsRegisters h (s := s₁) hload (by rw [hindex]; omega)
  have hdigit : ∀ i : Nibble, i.toNat ≤ 2 →
      s₂.machine.v i = s₁.machine.memory.cell (s.machine.index.toNat + i.toNat) := by
    intro i hle
    rw [hloads.loaded_eq i (hlast ▸ hle), hindex]
  exact ⟨hundreds, tens, ones, s₁, s₂, hs₁, hdigits, hs₂,
    (hdigit 0 (by decide)).trans hdigits.hundreds_eq, (hdigit 1 (by decide)).trans hdigits.tens_eq,
    (hdigit 2 (by decide)).trans hdigits.ones_eq⟩

end Executed

/-- Registers are recovered from the memory, the memory from the registers, and a register from its digits. -/
theorem registers_recovered_from_memory (h : Host) :
    (∀ {s : Session} {op : Opcode}, op.form = .storeRegs →
      s.machine.index.toNat + op.x.toNat ≤ 4095 →
      ∃ s₁, execute h op s = .ok () s₁ ∧ s.machine.StoresRegisters op.x s₁.machine ∧
        s.Keeping op.x s₁) ∧
    (∀ {s : Session} {load store : Opcode}, load.form = .loadRegs → store.form = .storeRegs →
      store.x = load.x → s.machine.index.toNat + load.x.toNat ≤ 4095 →
      ∃ s₁ s₂, execute h load s = .ok () s₁ ∧ execute h store s₁ = .ok () s₂ ∧
        s₂.machine.memory = s.machine.memory) ∧
    ∀ {s : Session} {op load : Opcode}, op.form = .storeBcd → load.form = .loadRegs →
      load.x = 2 → s.machine.index.toNat ≤ 4093 →
      ∃ hundreds tens ones s₁ s₂, execute h op s = .ok () s₁ ∧
        s.machine.StoresDigits op.x hundreds tens ones s₁.machine ∧
        execute h load s₁ = .ok () s₂ ∧ s₂.machine.v 0 = hundreds ∧ s₂.machine.v 1 = tens ∧
        s₂.machine.v 2 = ones := by
  refine ⟨fun hop hi => ?_, loaded_then_stored h, digits_then_loaded h⟩
  obtain ⟨s₁, hs₁, hstores⟩ := execute_storesRegisters h hop hi
  exact ⟨s₁, hs₁, hstores, keeping_of_storesRegisters hi hstores⟩

theorem value_and_digits_recovered :
    ∃ s : Session, s.Reachable ∧ s.machine.v 0 = 173 ∧
      (∃ s₁ s₂ t, execute .quiet ⟨0xF055, .storeRegs⟩ s = .ok () s₁ ∧
        ExecuteRun s₁ [(s₁, ⟨0x6000, .setImm⟩)] s₂ ∧ s₂.machine.v 0 = 0 ∧
        execute .quiet ⟨0xF065, .loadRegs⟩ s₂ = .ok () t ∧ t.machine.v 0 = 173) ∧
      (∃ s₁ s₂, execute .quiet ⟨0xFF65, .loadRegs⟩ s = .ok () s₁ ∧
        execute .quiet ⟨0xFF55, .storeRegs⟩ s₁ = .ok () s₂ ∧
        s₂.machine.memory = s.machine.memory) ∧
      ∃ s₁ s₂, execute .quiet ⟨0xF033, .storeBcd⟩ s = .ok () s₁ ∧
        execute .quiet ⟨0xF265, .loadRegs⟩ s₁ = .ok () s₂ ∧
        s₂.machine.v 0 = 1 ∧ s₂.machine.v 1 = 7 ∧ s₂.machine.v 2 = 3 := by
  obtain ⟨s, hs, hset, -⟩ := constant_calculates .quiet (.fresh .absent) 0 0xA 0xD
  have hreachable : s.Reachable := Session.reachable_executed ⟨.absent, [], rfl⟩ hs
  have hvalue : s.machine.v 0 = 173 := BitVec.eq_of_toNat_eq (Int.ofNat_inj.1 hset.result_eq)
  have hindex : s.machine.index = 0 := by
    rw [hset.rest_eq]
    rfl
  have hroom : ∀ x : Nibble, s.machine.index.toNat + x.toNat ≤ 4095 := by
    intro x
    have hx := x.isLt
    rw [hindex]
    show 0 + x.toNat ≤ 4095
    omega
  obtain ⟨hkept, hback, hdigits⟩ := registers_recovered_from_memory .quiet
  refine ⟨s, hreachable, hvalue, ?_, hback rfl rfl rfl (hroom _), ?_⟩
  · have hstore : (⟨0xF055, .storeRegs⟩ : Opcode).form = .storeRegs := rfl
    obtain ⟨s₁, hs₁, hstores, hkeeping⟩ := hkept hstore (hroom _)
    have hc : s₁.machine.calculation? ⟨0x6000, .setImm⟩ = some ⟨0, none⟩ := rfl
    obtain ⟨-, hrand, hkey, hf⟩ := Machine.plain_of_calculation hc
    obtain ⟨s₂, hs₂, hmachine, -⟩ := execute_unasked .quiet hrand hkey hf
    have hzero : s₁.machine.Calculates 0 ⟨0, none⟩ s₂.machine := by
      rw [hmachine]
      exact Machine.calculates_effect hc 0
    have hrun : ExecuteRun s₁ [(s₁, ⟨0x6000, .setImm⟩)] s₂ := .single ⟨rfl, .quiet, hs₂⟩
    have hindex₂ : s₂.machine.index = s.machine.index := by
      rw [hzero.rest_eq, hstores.rest_eq]
    have hspared : ∀ low high, Spares [(s₁, ⟨0x6000, .setImm⟩)] low high := by
      intro low high a _ _ step hstep
      rw [List.mem_singleton.1 hstep]
      exact id
    have hload : (⟨0xF065, .loadRegs⟩ : Opcode).form = .loadRegs := rfl
    obtain ⟨t, ht, hloaded, -⟩ := hkeeping hrun (hspared _ _) rfl hindex₂ .quiet hload rfl
    exact ⟨s₁, s₂, t, hs₁, hrun, BitVec.eq_of_toNat_eq (Int.ofNat_inj.1 hzero.result_eq), ht,
      (hloaded 0 (Nat.zero_le _)).trans hvalue⟩
  · have hdigit : (⟨0xF033, .storeBcd⟩ : Opcode).form = .storeBcd := rfl
    have hload : (⟨0xF265, .loadRegs⟩ : Opcode).form = .loadRegs := rfl
    obtain ⟨hundreds, tens, ones, s₁, s₂, hs₁, hstored, hs₂, h₀, h₁, h₂⟩ :=
      hdigits hdigit hload rfl (by rw [hindex]; decide)
    obtain ⟨-, htens, hones⟩ := hstored.digits_le
    have hsum : 100 * hundreds.toNat + 10 * tens.toNat + ones.toNat = 173 := by
      rw [hstored.value_eq]
      exact congrArg BitVec.toNat hvalue
    have hhundreds : hundreds.toNat = 1 := by omega
    have htens : tens.toNat = 7 := by omega
    have hones : ones.toNat = 3 := by omega
    exact ⟨s₁, s₂, hs₁, hs₂, h₀.trans (BitVec.eq_of_toNat_eq hhundreds),
      h₁.trans (BitVec.eq_of_toNat_eq htens), h₂.trans (BitVec.eq_of_toNat_eq hones)⟩

end ChipEight
