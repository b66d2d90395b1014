import ChipEight.Proofs.Sprites

/-! Sprites drawn one after the other. Drawn twice, a sprite leaves the screen as it was; and the order of several
makes no difference to the screen. -/

namespace ChipEight

namespace Grid

variable {w h : Nat}

theorem inverted_self (g : Grid Bool w h) (p : Nat → Nat → Bool) :
    (g.inverted p).inverted p = g := by
  apply ext_isOn
  intro x y hxy
  rw [isOn_inverted _ _ hxy, isOn_inverted _ _ hxy, Bool.xor_assoc, Bool.xor_self, Bool.xor_false]

theorem inverted_comm (g : Grid Bool w h) (p q : Nat → Nat → Bool) :
    (g.inverted p).inverted q = (g.inverted q).inverted p := by
  apply ext_isOn
  intro x y hxy
  simp only [isOn_inverted _ _ hxy]
  exact Bool.xor_right_comm ..

def Lights (g g' : Grid Bool w h) : Prop :=
  ∃ x y, (x < w ∧ y < h) ∧ g.isOn x y = false ∧ g'.isOn x y = true

end Grid

namespace Machine

variable {m m' : Machine} {op : Opcode}

theorem spriteStored_iff (hop : op.form = .draw) : m.SpriteStored op ↔ m.fault? op = none := by
  refine ⟨fun hstored => hstored.fault?_eq_none hop, fun hf row hrow hedge => ?_⟩
  have hbeyond : m.beyond? (m.visibleRows op) = none := by simpa only [fault?, hop] using hf
  have hvisible : ¬ 4096 < m.index.toNat + m.visibleRows op := by
    intro hlt
    simp [beyond?, hlt] at hbeyond
  unfold visibleRows originY at hvisible
  omega

theorem Draws.screen_eq (hdraws : m.Draws op m') : m'.screen = m.screen.inverted (m.sprite op) := by
  apply Grid.ext_isOn
  intro px py hxy
  rw [hdraws.pixel_eq px py hxy, m.screen.isOn_inverted _ hxy]

theorem Draws.memory_eq (hdraws : m.Draws op m') : m'.memory = m.memory := by
  rw [hdraws.rest_eq]

theorem Draws.index_eq (hdraws : m.Draws op m') : m'.index = m.index := by
  rw [hdraws.rest_eq]

theorem Draws.sprite_eq (hdraws : m.Draws op m') (hx : op.x ≠ Registers.flag)
    (hy : op.y ≠ Registers.flag) : m'.sprite op = m.sprite op := by
  rw [sprite, sprite, hdraws.memory_eq, hdraws.index_eq, hdraws.register_eq _ hx,
    hdraws.register_eq _ hy]

theorem Draws.stored (hdraws : m.Draws op m') (hy : op.y ≠ Registers.flag)
    (hstored : m.SpriteStored op) : m'.SpriteStored op := by
  unfold SpriteStored
  rw [hdraws.index_eq, hdraws.register_eq _ hy]
  exact hstored

theorem Draws.collides_iff (hdraws : m.Draws op m') (hsprite : m'.sprite op = m.sprite op) :
    m'.Collides op ↔ m.screen.Lights m'.screen := by
  have hpixel : ∀ px py, px < 64 ∧ py < 32 →
      (m'.screen.isOn px py = true ∧ m'.sprite op px py = true ↔
        m.screen.isOn px py = false ∧ m'.screen.isOn px py = true) := by
    intro px py hxy
    rw [hsprite, hdraws.pixel_eq px py hxy]
    cases m.screen.isOn px py <;> simp
  exact exists_congr fun px => exists_congr fun py => and_congr_right fun hxy => hpixel px py hxy

end Machine

section Drawing

variable {h : Host} {s s' : Session} {op : Opcode}

theorem execute_draws (h : Host) (hop : op.form = .draw) (hstored : s.machine.SpriteStored op) :
    ∃ s', execute h op s = .ok () s' ∧ s.machine.Draws op s'.machine := by
  obtain ⟨s', hs', hmachine, -⟩ := execute_unasked h (by simp [hop]) (by simp [hop])
    (hstored.fault?_eq_none hop)
  refine ⟨s', hs', ?_⟩
  rw [hmachine]
  exact hstored.draws hop 0

theorem draws_of_execute (hop : op.form = .draw) (hs : execute h op s = .ok () s') :
    s.machine.SpriteStored op ∧ s.machine.Draws op s'.machine := by
  have hstored := (Machine.spriteStored_iff hop).2 (fault?_of_execute hs)
  obtain ⟨t, ht, hdraws⟩ := execute_draws h hop hstored
  rw [hs] at ht
  cases ht
  exact ⟨hstored, hdraws⟩

theorem drawn_twice (hop : op.form = .draw) (hx : op.x ≠ Registers.flag)
    (hy : op.y ≠ Registers.flag) (hs : execute h op s = .ok () s') :
    ∃ s₂, execute h op s' = .ok () s₂ ∧ s₂.machine.screen = s.machine.screen ∧
      (s₂.machine.v Registers.flag = 1 ↔ s.machine.screen.Lights s'.machine.screen) := by
  obtain ⟨hstored, hdraws⟩ := draws_of_execute hop hs
  obtain ⟨s₂, hs₂, hagain⟩ := execute_draws h hop (hdraws.stored hy hstored)
  have hsprite := hdraws.sprite_eq hx hy
  refine ⟨s₂, hs₂, ?_, ?_⟩
  · rw [hagain.screen_eq, hsprite, hdraws.screen_eq, Grid.inverted_self]
  · rw [← hdraws.collides_iff hsprite]
    refine ⟨fun hflag => Classical.byContradiction fun hclear => ?_, hagain.flag_set⟩
    rw [hagain.flag_cleared hclear] at hflag
    cases hflag

end Drawing

structure Placement where
  op : Opcode
  index : Address
  left : Byte
  top : Byte

namespace Placement

def sprite (d : Placement) (memory : Memory) : Nat → Nat → Bool :=
  memory.sprite d.index.toNat d.op.n.toNat (d.left.toNat % 64) (d.top.toNat % 32)

structure Drawable (d : Placement) : Prop where
  form_eq : d.op.form = .draw
  left_eq : d.op.x = d.op.y → d.left = d.top
  stored : ∀ row < d.op.n.toNat, d.top.toNat % 32 + row < 32 → d.index.toNat + row < 4096

end Placement

/-- The second session has the memory and the screen of the first one, and is about to draw a sprite. -/
structure Session.Arranged (s : Session) (d : Placement) (t : Session) : Prop where
  memory_eq : t.machine.memory = s.machine.memory
  screen_eq : t.machine.screen = s.machine.screen
  index_eq : t.machine.index = d.index
  left_eq : t.machine.v d.op.x = d.left
  top_eq : t.machine.v d.op.y = d.top

/-- A sprite is drawn, before which anything may be done that leaves the memory and the screen alone. -/
structure Placement.Drawn (h : Host) (s : Session) (d : Placement) (s' : Session) : Prop where
  form_eq : d.op.form = .draw
  executed : ∃ t, s.Arranged d t ∧ execute h d.op t = .ok () s'

def Drawings (h : Host) : Session → List Placement → Session → Prop :=
  Chain (Placement.Drawn h)

namespace Session.Arranged

variable {s t : Session} {d : Placement}

theorem sprite_eq (ht : s.Arranged d t) :
    t.machine.sprite d.op = d.sprite s.machine.memory := by
  rw [Machine.sprite, Placement.sprite, ht.memory_eq, ht.index_eq, ht.left_eq, ht.top_eq]

theorem stored_iff (ht : s.Arranged d t) :
    t.machine.SpriteStored d.op ↔
      ∀ row < d.op.n.toNat, d.top.toNat % 32 + row < 32 → d.index.toNat + row < 4096 := by
  rw [Machine.SpriteStored, ht.index_eq, ht.top_eq]

end Session.Arranged

def Session.arrange (s : Session) (d : Placement) : Session :=
  s.onMachine fun m => { m with
    index := d.index
    registers := (m.registers.set d.op.x d.left).set d.op.y d.top }

theorem Placement.Drawable.arranged {d : Placement} (hd : d.Drawable) (s : Session) :
    s.Arranged d (s.arrange d) := by
  refine ⟨rfl, rfl, rfl, ?_, ?_⟩
  · refine (Bank.get_set ..).trans ?_
    split
    · next hxy => exact (hd.left_eq hxy).symm
    · exact (Bank.get_set ..).trans (if_pos rfl)
  · exact (Bank.get_set ..).trans (if_pos rfl)

namespace Drawings

variable {h : Host} {s s' : Session} {ds : List Placement}

theorem drawable (hdrawings : Drawings h s ds s') : ∀ d ∈ ds, d.Drawable := by
  intro d hd
  obtain ⟨_, _, hop, t, harranged, hdrawn⟩ := hdrawings.exists_of_mem hd
  have hstored := (draws_of_execute hop hdrawn).1
  refine ⟨hop, fun hxy => ?_, harranged.stored_iff.1 hstored⟩
  rw [← harranged.left_eq, ← harranged.top_eq, hxy]

theorem of_drawable (h : Host) (hds : ∀ d ∈ ds, d.Drawable) (s : Session) :
    ∃ s', Drawings h s ds s' := by
  induction ds generalizing s with
  | nil => exact ⟨s, .nil s⟩
  | cons d ds ih =>
    rw [List.forall_mem_cons] at hds
    obtain ⟨hd, hds⟩ := hds
    have harranged := hd.arranged s
    obtain ⟨s₁, hs₁, -⟩ := execute_draws h hd.form_eq (harranged.stored_iff.2 hd.stored)
    obtain ⟨s', hrest⟩ := ih hds s₁
    exact ⟨s', .cons ⟨hd.form_eq, _, harranged, hs₁⟩ hrest⟩

theorem screen_eq (hdrawings : Drawings h s ds s') :
    s'.machine.screen =
      ds.foldl (fun screen d => screen.inverted (d.sprite s.machine.memory)) s.machine.screen := by
  induction hdrawings with
  | nil => rfl
  | @cons s s₁ s' d ds hdrawn _ ih =>
    obtain ⟨hop, t, harranged, hdrawn⟩ := hdrawn
    have hdraws := (draws_of_execute hop hdrawn).2
    have hmemory : s₁.machine.memory = s.machine.memory :=
      hdraws.memory_eq.trans harranged.memory_eq
    have hscreen : s₁.machine.screen = s.machine.screen.inverted (d.sprite s.machine.memory) := by
      rw [hdraws.screen_eq, harranged.screen_eq, harranged.sprite_eq]
    rw [ih, hmemory, hscreen, List.foldl_cons]

theorem screen_of_perm {t : Session} {ds' : List Placement} (hdrawings : Drawings h s ds s')
    (hdrawings' : Drawings h s ds' t) (hperm : ds.Perm ds') :
    t.machine.screen = s'.machine.screen := by
  rw [hdrawings.screen_eq, hdrawings'.screen_eq]
  exact hperm.symm.foldl_eq' (fun d _ d' _ screen => screen.inverted_comm ..) _

end Drawings

/-- A sprite drawn twice in a row leaves the screen as it was, unless the flag moves it; and the screen after
several sprites does not depend on their order. -/
theorem drawings_cancel_and_commute (h : Host) :
    (∀ {s s₁ : Session} {op : Opcode}, op.form = .draw → op.x ≠ Registers.flag →
      op.y ≠ Registers.flag → execute h op s = .ok () s₁ →
      ∃ s₂, execute h op s₁ = .ok () s₂ ∧ s₂.machine.screen = s.machine.screen ∧
        (s₂.machine.v Registers.flag = 1 ↔ s.machine.screen.Lights s₁.machine.screen)) ∧
    ∀ {s s' : Session} {ds ds' : List Placement}, Drawings h s ds s' → ds.Perm ds' →
      (∃ t, Drawings h s ds' t) ∧
        ∀ t, Drawings h s ds' t → t.machine.screen = s'.machine.screen := by
  refine ⟨fun hop hx hy hs => drawn_twice hop hx hy hs, fun {s s' ds ds'} hdrawings hperm =>
    ⟨?_, fun t ht => hdrawings.screen_of_perm ht hperm⟩⟩
  exact Drawings.of_drawable h (fun d hd => hdrawings.drawable d (hperm.mem_iff.2 hd)) s

def drawingGlyph : Session :=
  .started .absent [0xD0, 0x15]

def glyphDrawing : Opcode :=
  ⟨0xD015, .draw⟩

theorem drawable_glyph {index : Address} (hi : index.toNat ≤ 4091) (left top : Byte) :
    (⟨glyphDrawing, index, left, top⟩ : Placement).Drawable := by
  have hxy : glyphDrawing.x ≠ glyphDrawing.y := by decide
  have hrows : glyphDrawing.n.toNat = 5 := by decide
  refine ⟨rfl, fun h => absurd h hxy, fun row hrow _ => ?_⟩
  rw [hrows] at hrow
  show index.toNat + row < 4096
  omega

def overlappingGlyphs : Placement × Placement :=
  (⟨glyphDrawing, 0, 0, 0⟩, ⟨glyphDrawing, 5, 2, 1⟩)

theorem glyphs_cancel_and_commute :
    ∃ s₁ s₂ s' t, execute .quiet glyphDrawing drawingGlyph = .ok () s₁ ∧
      execute .quiet glyphDrawing s₁ = .ok () s₂ ∧
      s₂.machine.screen = drawingGlyph.machine.screen ∧ s₂.machine.v Registers.flag = 1 ∧
      Drawings .quiet drawingGlyph [overlappingGlyphs.1, overlappingGlyphs.2] s' ∧
      Drawings .quiet drawingGlyph [overlappingGlyphs.2, overlappingGlyphs.1] t ∧
      t.machine.screen = s'.machine.screen := by
  have hmachine : drawingGlyph.machine.index = 0 ∧ drawingGlyph.machine.screen = .blank ∧
      drawingGlyph.machine.registers = .zero := by
    rw [drawingGlyph, Session.started_eq .absent (by decide)]
    exact ⟨rfl, rfl, rfl⟩
  obtain ⟨hindex, hscreen, hregisters⟩ := hmachine
  have hv : ∀ i, drawingGlyph.machine.v i = 0 := by
    intro i
    rw [Machine.v, hregisters]
    exact Bank.get_fill ..
  have hglyph : drawingGlyph.machine.memory.cell 0 = 0xF0 := by
    rw [drawingGlyph, Session.started_memory .absent (by decide), if_pos (by decide)]
    rfl
  have hpixel : drawingGlyph.machine.sprite glyphDrawing 0 0 = true := by
    rw [Machine.sprite, hv, hv, hindex]
    show (true && (drawingGlyph.machine.memory.cell 0).getLsbD 7) = true
    rw [hglyph]
    rfl
  have hoff : drawingGlyph.machine.screen.isOn 0 0 = false := by
    rw [hscreen, Screen.isOn_blank]
  have hstored : drawingGlyph.machine.SpriteStored glyphDrawing := by
    intro row hrow _
    have hlt : row < 5 := hrow
    rw [hindex]
    exact Nat.lt_of_lt_of_le (Nat.add_lt_add_left hlt 0) (by decide)
  obtain ⟨s₁, hs₁, hdraws⟩ := execute_draws .quiet rfl hstored
  have hlights : drawingGlyph.machine.screen.Lights s₁.machine.screen := by
    refine ⟨0, 0, by decide, hoff, ?_⟩
    rw [hdraws.pixel_eq 0 0 (by decide), hoff, hpixel, Bool.false_xor]
  have hdrawable : ∀ d ∈ [overlappingGlyphs.1, overlappingGlyphs.2], d.Drawable :=
    List.forall_mem_cons.2 ⟨drawable_glyph (by decide) 0 0,
      List.forall_mem_cons.2 ⟨drawable_glyph (by decide) 2 1, List.forall_mem_nil _⟩⟩
  obtain ⟨s', hs'⟩ := Drawings.of_drawable .quiet hdrawable drawingGlyph
  obtain ⟨hcancel, hcommute⟩ := drawings_cancel_and_commute .quiet
  obtain ⟨s₂, hs₂, hback, hflag⟩ := hcancel rfl (by decide) (by decide) hs₁
  obtain ⟨⟨t, ht⟩, hsame⟩ := hcommute hs' (List.Perm.swap ..)
  exact ⟨s₁, s₂, s', t, hs₁, hs₂, hback, hflag.2 hlights, hs', ht, hsame t ht⟩

end ChipEight
