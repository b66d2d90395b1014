import ChipEight.Proofs.Loading
import ChipEight.Proofs.Redrawing
import ChipEight.Proofs.Runs
import ChipEight.Proofs.Started
import ChipEight.Proofs.Surroundings

/-! The glyphs of the font are where the instruction that points at them says, and stay there as long as nothing is
stored over them. -/

namespace ChipEight

/-- The pixels of a digit's glyph at an origin: five bytes of the font one below the other, the most significant bit
of each leftmost. -/
def Font.pixel (digit left top px py : Nat) : Bool :=
  decide (left ≤ px ∧ px < left + 8 ∧ top ≤ py ∧ py < top + 5) &&
    (Font.bytes.getD (5 * digit + (py - top)) 0).getLsbD (7 - (px - left))

namespace Machine

def HasFont (m : Machine) : Prop :=
  ∀ a < 80, m.memory.cell a = Font.bytes.getD a 0

theorem boot_hasFont (m : Machine) : m.boot.HasFont := by
  intro a ha
  rw [boot_cell, if_pos ha]

theorem HasFont.load {m m' : Machine} {program : Array Byte} (hfont : m.HasFont)
    (hm : m.load program = .ok m') : m'.HasFont := by
  intro a ha
  rw [load_eq] at hm
  split at hm
  · cases hm
  · next hsize =>
    cases hm
    have hloads := m.overlay_loads (Nat.le_of_not_lt hsize)
    rw [hloads.cell_eq a (by omega), hfont a ha]

theorem hasFont_stable : Stable HasFont where
  touched hfont htouched := by
    obtain ⟨_, _, rfl⟩ := htouched
    exact hfont
  timers _ _ hfont := hfont
  boot _ := boot_hasFont _
  load hfont hm := hfont.load hm

end Machine

theorem Call.executes_of_idles {c : Call} (hc : c.idles = true) : c.executes = false := by
  cases c <;> first | rfl | cases hc

section Run

variable {h : Host} {s s' : Session}

theorem Session.Paused.hasFont (hpaused : s.Paused s') (hfont : s.machine.HasFont) :
    s'.machine.HasFont := by
  obtain ⟨calls, hcalls, rfl⟩ := hpaused
  exact Machine.hasFont_stable.after_keeps hfont fun call hcall =>
    Call.executes_of_idles (hcalls call hcall)

theorem Run.hasFont {run : List Step} (hrun : Run h s run s') (hfont : s.machine.HasFont)
    (hspared : ∀ step ∈ run, ∀ a < 80, ¬ step.before.machine.Stores step.op a) :
    s'.machine.HasFont := by
  obtain ⟨t, hsteps, hlast⟩ := hrun
  refine hlast.hasFont ?_
  refine hsteps.keeps (P := fun t => t.machine.HasFont) hfont
    fun step hmem u u' hu hstep a ha => ?_
  obtain ⟨hpaused, hcycle, rfl⟩ := hstep
  rw [cycle_cell hcycle (hspared step hmem a ha)]
  exact hpaused.hasFont hu a ha

end Run

section Pointed

variable {s : Session} {op : Opcode}

theorem glyphAddress_toNat (digit : Nibble) :
    (Machine.glyphAddress digit).toNat = 5 * digit.toNat := by
  have hdigit := digit.isLt
  unfold Machine.glyphAddress
  rw [BitVec.toNat_ofNat, Memory.fontStart, Font.height]
  omega

theorem execute_pointsAtGlyph (h : Host) (hop : op.form = .fontAddress) :
    ∃ s', execute h op s = .ok () s' ∧
      s'.machine.index = Machine.glyphAddress ((s.machine.v op.x).setWidth 4) ∧
      s'.machine.memory = s.machine.memory ∧ s'.machine.registers = s.machine.registers ∧
      s'.machine.screen = s.machine.screen := by
  have hf : s.machine.fault? op = none := by simp only [Machine.fault?, hop]
  obtain ⟨s', hs', hmachine, -⟩ := execute_unasked h (by simp [hop]) (by simp [hop]) hf
  have hpointed : s'.machine = { s.machine.enter op with
      index := Machine.glyphAddress (((s.machine.enter op).v op.x).setWidth 4) } := by
    rw [hmachine]
    simp only [Machine.effect, hop]
  refine ⟨s', hs', ?_⟩
  rw [hpointed]
  refine ⟨?_, s.machine.enter_memory op, s.machine.enter_registers op, ?_⟩
  · rw [Machine.enter_v]
  · rw [Machine.enter_eq]

theorem Machine.HasFont.sprite_eq {m : Machine} (hfont : m.HasFont) (hn : op.n = 5)
    {digit : Nibble} (hindex : m.index = glyphAddress digit) (px py : Nat) :
    m.sprite op px py =
      Font.pixel digit.toNat ((m.v op.x).toNat % 64) ((m.v op.y).toNat % 32) px py := by
  have hdigit := digit.isLt
  have hrows : op.n.toNat = 5 := by
    rw [hn]
    rfl
  rw [sprite, hindex, glyphAddress_toNat, hrows, Memory.sprite, Font.pixel]
  generalize (m.v op.x).toNat % 64 = left
  generalize (m.v op.y).toNat % 32 = top
  by_cases hin : left ≤ px ∧ px < left + 8 ∧ top ≤ py ∧ py < top + 5
  · rw [hfont _ (by omega)]
  · rw [decide_eq_false hin, Bool.false_and, Bool.false_and]

theorem spriteStored_of_glyph {m : Machine} (hn : op.n = 5) {digit : Nibble}
    (hindex : m.index = Machine.glyphAddress digit) : m.SpriteStored op := by
  intro row hrow _
  have hdigit := digit.isLt
  have hrows : op.n.toNat = 5 := by
    rw [hn]
    rfl
  rw [hindex, glyphAddress_toNat]
  omega

end Pointed

/-- Once the machine has been booted, and as long as nothing has been stored over the font, pointing at a digit's
glyph and drawing five rows inverts exactly the pixels of that glyph. -/
theorem glyph_drawn_as_pointed (h h₀ : Host) {s s' : Session} {run : List Step}
    (hrun : Run h (s.after [(h₀, .boot)]) run s')
    (hspared : ∀ step ∈ run, ∀ a < 80, ¬ step.before.machine.Stores step.op a)
    {point draw : Opcode} (hpoint : point.form = .fontAddress) (hdraw : draw.form = .draw)
    (hn : draw.n = 5) :
    ∃ s₁ s₂, execute h point s' = .ok () s₁ ∧ execute h draw s₁ = .ok () s₂ ∧
      ∀ px py, px < 64 ∧ py < 32 →
        s₂.machine.screen.isOn px py = (s'.machine.screen.isOn px py ^^
          Font.pixel ((s'.machine.v point.x).toNat % 16) ((s'.machine.v draw.x).toNat % 64)
            ((s'.machine.v draw.y).toNat % 32) px py) := by
  have hfont : s'.machine.HasFont := hrun.hasFont s.machine.boot_hasFont hspared
  obtain ⟨s₁, hs₁, hindex, hmemory, hregisters, hscreen⟩ := execute_pointsAtGlyph h hpoint
  obtain ⟨s₂, hs₂, hdraws⟩ := execute_draws h hdraw (spriteStored_of_glyph hn hindex)
  have hfont₁ : s₁.machine.HasFont := by
    unfold Machine.HasFont
    rwa [hmemory]
  refine ⟨s₁, s₂, hs₁, hs₂, fun px py hxy => ?_⟩
  have hv : ∀ i, s₁.machine.v i = s'.machine.v i := fun i => by
    rw [Machine.v, hregisters, Machine.v]
  rw [hdraws.pixel_eq px py hxy, hscreen, hfont₁.sprite_eq hn hindex, hv, hv,
    BitVec.toNat_setWidth]

theorem cycle_setsRegister {h : Host} {s s' : Session} {op : Opcode} (hop : op.form = .setImm)
    (hs : cycle h s = .ok op s') :
    s'.machine.registers = s.machine.registers.set op.x op.nn ∧
      s'.machine.screen = s.machine.screen := by
  obtain ⟨answer, m, ⟨_, _, hm⟩, ⟨_, _, hs'⟩⟩ := Session.cycle_machine hs
  have hset : m.effect op answer = m.setV op.x op.nn := by
    simp only [Machine.effect, hop]
  rw [hs', hset, Machine.setV]
  refine ⟨?_, ?_⟩
  · show m.registers.set op.x op.nn = s.machine.registers.set op.x op.nn
    rw [hm, Machine.enter_registers]
  · show m.screen = s.machine.screen
    rw [hm, Machine.enter_eq]

def settingDigit : Session :=
  .started .absent [0x60, 0x1A]

theorem glyph_of_low_digit_drawn :
    ∃ s', Run .quiet settingDigit [⟨settingDigit, ⟨0x601A, .setImm⟩, s'⟩] s' ∧
      s'.machine.v 0 = 0x1A ∧
      (∀ a < 80, ¬ settingDigit.machine.Stores ⟨0x601A, .setImm⟩ a) ∧
      ∃ s₁ s₂, execute .quiet ⟨0xF029, .fontAddress⟩ s' = .ok () s₁ ∧
        execute .quiet ⟨0xD115, .draw⟩ s₁ = .ok () s₂ ∧
        ∀ px py, px < 64 ∧ py < 32 →
          s₂.machine.screen.isOn px py = Font.pixel 0xA 0 0 px py := by
  have hnext : settingDigit.machine.Next ⟨0x601A, .setImm⟩ :=
    Session.started_next .absent (by decide) (by decide) rfl
  have hcycle := (Session.completes_of_next (h := .quiet) hnext (by decide) (by decide) rfl).cycle_eq
  generalize (settingDigit.begun .quiet ⟨0x601A, .setImm⟩).concluded .quiet
    ⟨0x601A, .setImm⟩ 0 = s' at hcycle
  have hrun : Run .quiet settingDigit [⟨settingDigit, ⟨0x601A, .setImm⟩, s'⟩] s' :=
    .cons hcycle (.refl .quiet s')
  have hspared : ∀ step ∈ [(⟨settingDigit, ⟨0x601A, .setImm⟩, s'⟩ : Step)], ∀ a < 80,
      ¬ step.before.machine.Stores step.op a :=
    List.forall_mem_cons.2 ⟨fun _ _ => id, List.forall_mem_nil _⟩
  have hstarted : settingDigit.machine.registers = .zero ∧ settingDigit.machine.screen = .blank := by
    rw [settingDigit, Session.started_eq .absent (by decide)]
    exact ⟨rfl, rfl⟩
  obtain ⟨hzero, hblank⟩ := hstarted
  obtain ⟨hregisters, hscreen⟩ := cycle_setsRegister rfl hcycle
  rw [hzero] at hregisters
  rw [hblank] at hscreen
  have hset : s'.machine.v 0 = 0x1A := by
    rw [Machine.v, hregisters]
    exact (Bank.get_set ..).trans (if_pos (by decide))
  have hother : s'.machine.v 1 = 0 := by
    rw [Machine.v, hregisters]
    exact (Bank.get_set ..).trans ((if_neg (by decide)).trans (Bank.get_fill ..))
  obtain ⟨s, hbooted⟩ : ∃ s : Session, settingDigit = s.after [(.quiet, .boot)] := by
    unfold settingDigit Session.started
    exact ⟨_, Session.after_append _ [_] [(.quiet, .boot)]⟩
  have hafter : Run .quiet (s.after [(.quiet, .boot)])
      [⟨settingDigit, ⟨0x601A, .setImm⟩, s'⟩] s' := by
    rwa [← hbooted]
  have hpointing : (⟨0xF029, .fontAddress⟩ : Opcode).form = .fontAddress := rfl
  have hdrawing : (⟨0xD115, .draw⟩ : Opcode).form = .draw := rfl
  obtain ⟨s₁, s₂, hs₁, hs₂, hpixel⟩ :=
    glyph_drawn_as_pointed .quiet .quiet hafter hspared hpointing hdrawing (by decide)
  refine ⟨s', hrun, hset, fun _ _ => id, s₁, s₂, hs₁, hs₂, fun px py hxy => ?_⟩
  have hpoint : (⟨0xF029, .fontAddress⟩ : Opcode).x = 0 := by decide
  have hleft : (⟨0xD115, .draw⟩ : Opcode).x = 1 := by decide
  have htop : (⟨0xD115, .draw⟩ : Opcode).y = 1 := by decide
  rw [hpixel px py hxy, hscreen, Screen.isOn_blank, Bool.false_xor, hpoint, hleft, htop, hset,
    hother]
  rfl

end ChipEight
