import ChipEight.Proofs.Counter
import ChipEight.Proofs.Failure
import ChipEight.Proofs.Invariant
import ChipEight.Proofs.Started

/-! Calls and returns: what lies on the stack below a call stays there until the matching return. -/

namespace ChipEight

open Session

section Step

variable {h : Host} {s s' : Session} {op : Opcode} {l : List Int}

theorem cycle_call_stack (hl : s.machine.stack.Holds l) (hs : cycle h s = .ok op s')
    (hop : op.form = .call) : s'.machine.stack.Holds (l ++ [(s.machine.counter.toNat : Int)]) := by
  obtain ⟨answer, m, ⟨_, _, hm⟩, ⟨_, _, hs'⟩⟩ := cycle_machine hs
  have hcounter : m.counter = s.machine.counter := by
    rw [hm, Machine.enter_eq, hop]
    rfl
  have hstack : m.stack = s.machine.stack := by
    rw [hm]
    exact Machine.enter_stack ..
  have hlt : l.length < 16 := by
    refine Nat.lt_of_le_of_ne hl.length_le fun hfull => ?_
    exact not_faults_of_cycle hs _ (.call hop (hl.depth_eq.trans hfull))
  obtain ⟨stack, hpushed, heffect⟩ := m.effect_of_call op answer hop (hstack ▸ hl) hlt
  rw [hs', heffect, ← hcounter]
  exact hpushed

theorem cycle_ret_stack (hl : s.machine.stack.Holds l) (hs : cycle h s = .ok op s')
    (hop : op.form = .ret) :
    ∃ rest a, l = rest ++ [a] ∧ s'.machine.stack.Holds rest ∧
      s'.machine.counter = Address.wrap a + 2 := by
  obtain ⟨answer, m, ⟨_, _, hm⟩, ⟨_, _, hs'⟩⟩ := cycle_machine hs
  have hstack : m.stack = s.machine.stack := by
    rw [hm]
    exact Machine.enter_stack ..
  obtain rfl | ⟨rest, a, rfl⟩ := l.eq_nil_or_concat
  · exact absurd (.ret hop hl.depth_eq) (not_faults_of_cycle hs _)
  · rw [List.concat_eq_append] at hl
    obtain ⟨stack, hpopped, heffect⟩ := m.effect_of_ret op answer hop (hstack ▸ hl)
    refine ⟨rest, a, List.concat_eq_append, ?_, ?_⟩
    · rw [hs', heffect]
      exact hpopped
    · rw [hs', heffect]

theorem cycle_other_stack (hs : cycle h s = .ok op s') (hcall : op.form ≠ .call)
    (hret : op.form ≠ .ret) : s'.machine.stack = s.machine.stack := by
  obtain ⟨answer, m, ⟨_, _, hm⟩, ⟨_, _, hs'⟩⟩ := cycle_machine hs
  rw [hs']
  refine (m.effect_stack op answer hcall hret).trans ?_
  rw [hm]
  exact Machine.enter_stack ..

theorem cycle_above {a : Int} {deeper : List Int} (hl : s.machine.stack.Holds (l ++ a :: deeper))
    (hs : cycle h s = .ok op s') :
    (∃ deeper', s'.machine.stack.Holds (l ++ a :: deeper')) ∨
      (op.form = .ret ∧ s'.machine.stack.Holds l ∧ s'.machine.counter = Address.wrap a + 2) := by
  by_cases hcall : op.form = .call
  · have hpushed := cycle_call_stack hl hs hcall
    rw [List.append_assoc, List.cons_append] at hpushed
    exact .inl ⟨_, hpushed⟩
  by_cases hret : op.form = .ret
  · obtain ⟨rest, b, hrest, hpopped, hcounter⟩ := cycle_ret_stack hl hs hret
    obtain rfl | ⟨deeper, c, rfl⟩ := deeper.eq_nil_or_concat
    · obtain ⟨rfl, hab⟩ := List.append_inj' hrest rfl
      cases hab
      exact .inr ⟨hret, hpopped, hcounter⟩
    · rw [List.concat_eq_append, ← List.cons_append, ← List.append_assoc] at hrest
      obtain ⟨rfl, -⟩ := List.append_inj' hrest rfl
      exact .inl ⟨_, hpopped⟩
  · rw [← cycle_other_stack hs hcall hret] at hl
    exact .inl ⟨_, hl⟩

end Step

theorem stack_stable (stack : CallStack) : Machine.Stable fun m => m.stack = stack where
  touched := by
    rintro m _ hm ⟨_, _, rfl⟩
    exact hm
  timers := fun _ _ hm => hm
  boot := fun hm => hm
  load := by
    intro m m' program hm hload
    rw [Machine.load_eq] at hload
    split at hload
    · cases hload
    · cases hload
      exact hm

theorem CompletedStep.above {s s' : Session} {step : Opcode × Session} {l : List Int} {a : Int}
    {deeper : List Int} (hstep : CompletedStep s step s')
    (hl : s.machine.stack.Holds (l ++ a :: deeper)) :
    (∃ deeper', s'.machine.stack.Holds (l ++ a :: deeper')) ∨
      (step.1.form = .ret ∧ s'.machine.stack.Holds l ∧
        s'.machine.counter = Address.wrap a + 2) := by
  obtain ⟨-, h, calls, hcalls, hcycle⟩ := hstep
  have hidle := (stack_stable s.machine.stack).after_keeps rfl hcalls
  rw [← hidle] at hl
  exact cycle_above hl hcycle

theorem CompletedRun.returns {s s' : Session} {op : Opcode} {run : List (Opcode × Session)}
    {l : List Int} {a : Int} {deeper : List Int} (hl : s.machine.stack.Holds (l ++ a :: deeper))
    (hrun : CompletedRun s (run ++ [(op, s')]))
    (habove : ∀ step ∈ run, l.length < step.2.machine.stack.depth)
    (hback : s'.machine.stack.depth = l.length) :
    op.form = .ret ∧ s'.machine.stack.Holds l ∧ s'.machine.counter = Address.wrap a + 2 := by
  obtain ⟨t', hsteps⟩ := hrun
  obtain ⟨t, hbefore, hlast⟩ := hsteps.last
  -- what lies deeper on the stack changes from one cycle to the next
  obtain ⟨deeper', ht⟩ : ∃ deeper', t.machine.stack.Holds (l ++ a :: deeper') := by
    refine hbefore.keeps (P := fun u => ∃ deeper', u.machine.stack.Holds (l ++ a :: deeper'))
      ⟨deeper, hl⟩ fun step hmem u u' ⟨_, hu⟩ hstep => ?_
    rcases hstep.above hu with hstill | ⟨-, hreturned, -⟩
    · exact hstill
    · exact absurd (hstep.1 ▸ hreturned.depth_eq) (Nat.ne_of_gt (habove step hmem))
  rcases hlast.above ht with ⟨_, hstill⟩ | hreturned
  · have hdepth := hstill.depth_eq
    rw [← hlast.1, hback, List.length_append, List.length_cons] at hdepth
    omega
  · rwa [← hlast.1] at hreturned

/-- A call is matched by the first return that brings the stack back to where it was, whatever happens
in between: the machine goes on behind the call, with the stack as it was before. -/
theorem call_matched_by_return {h : Host} {s s₁ s' : Session} {call op : Opcode}
    {run : List (Opcode × Session)} (hs : s.Reachable) (hcall : cycle h s = .ok call s₁)
    (hform : call.form = .call) (hrun : CompletedRun s₁ (run ++ [(op, s')]))
    (habove : ∀ step ∈ run, s.machine.stack.depth < step.2.machine.stack.depth)
    (hback : s'.machine.stack.depth = s.machine.stack.depth) :
    op.form = .ret ∧ s'.machine.counter.toNat = (s.machine.counter.toNat + 2) % 4096 ∧
      s'.machine.stack = s.machine.stack := by
  obtain ⟨l, hl, -⟩ := hs.sound.stack_holds
  have hpushed := cycle_call_stack hl hcall hform
  rw [hl.depth_eq] at habove hback
  obtain ⟨hret, hsame, hcounter⟩ := hrun.returns hpushed habove hback
  refine ⟨hret, ?_, hsame.unique hl⟩
  rw [hcounter, Address.wrap_toNat, BitVec.toNat_add]
  rfl

section Example

structure Session.Stands (s : Session) (program : List Byte) (offset : Nat) (l : List Int) :
    Prop where
  cell_eq : ∀ i (hi : i < program.length), s.machine.memory.cell (512 + i) = program[i]
  counter_eq : s.machine.counter.toNat = 512 + offset
  stack_holds : s.machine.stack.Holds l

variable {s : Session} {program : List Byte} {offset : Nat} {l : List Int} {w : Word}

theorem Session.Stands.cycle_ok (hs : s.Stands program offset l) (hfits : program.length ≤ 3584)
    (hoffset : offset + 1 < program.length) {op : Opcode}
    (hd : decode (program[offset] ++ program[offset + 1]) = .ok op) (hrand : op.form ≠ .rand)
    (hkey : op.form ≠ .waitKey) (hf : s.machine.fault? op = none)
    (hstores : ∀ a, ¬ s.machine.Stores op a) :
    ∃ s', cycle .quiet s = .ok op s' ∧
      ∀ i (hi : i < program.length), s'.machine.memory.cell (512 + i) = program[i] := by
  have hword : s.machine.word = program[offset] ++ program[offset + 1] := by
    rw [Machine.word, hs.counter_eq]
    exact congr (congrArg _ (hs.cell_eq offset (Nat.lt_of_succ_lt hoffset)))
      (hs.cell_eq (offset + 1) hoffset)
  have hcounter : s.machine.counter ≠ 4095 := by
    intro hlast
    have hnat : 512 + offset = 4095 := hs.counter_eq.symm.trans (congrArg BitVec.toNat hlast)
    omega
  have hnext : s.machine.Next op := Machine.next_iff.2 ⟨hcounter, hword ▸ hd⟩
  have hcycle := (completes_of_next (h := .quiet) hnext hrand hkey hf).cycle_eq
  exact ⟨_, hcycle, fun i hi => (cycle_cell hcycle (hstores _)).trans (hs.cell_eq i hi)⟩

theorem Session.Stands.call (hs : s.Stands program offset l) (next : Nat)
    (hfits : program.length ≤ 3584) (hoffset : offset + 1 < program.length)
    (hd : decode (program[offset] ++ program[offset + 1]) = .ok ⟨w, .call⟩) (hlt : l.length < 16)
    (hnext : (⟨w, .call⟩ : Opcode).nnn.toNat = 512 + next) :
    ∃ s', cycle .quiet s = .ok ⟨w, .call⟩ s' ∧
      s'.Stands program next (l ++ [((512 + offset : Nat) : Int)]) := by
  have hdepth : s.machine.stack.depth ≠ 16 := hs.stack_holds.depth_eq ▸ Nat.ne_of_lt hlt
  obtain ⟨s', hcycle, hcells⟩ :=
    hs.cycle_ok hfits hoffset hd nofun nofun (if_neg hdepth) fun _ => id
  have hpushed := cycle_call_stack hs.stack_holds hcycle rfl
  rw [hs.counter_eq] at hpushed
  have hcounter := Option.some.inj (cycle_counter hcycle)
  exact ⟨s', hcycle, hcells, (Int.ofNat_inj.1 hcounter).symm.trans hnext, hpushed⟩

theorem Session.Stands.ret {next : Nat}
    (hs : s.Stands program offset (l ++ [((512 + next : Nat) : Int)]))
    (hfits : program.length ≤ 3584) (hoffset : offset + 1 < program.length)
    (hd : decode (program[offset] ++ program[offset + 1]) = .ok ⟨w, .ret⟩)
    (hnext : next + 2 < program.length) :
    ∃ s', cycle .quiet s = .ok ⟨w, .ret⟩ s' ∧ s'.Stands program (next + 2) l := by
  have hdepth : s.machine.stack.depth ≠ 0 := by
    rw [hs.stack_holds.depth_eq, List.length_append]
    exact Nat.succ_ne_zero _
  obtain ⟨s', hcycle, hcells⟩ :=
    hs.cycle_ok hfits hoffset hd nofun nofun (if_neg hdepth) fun _ => id
  obtain ⟨rest, a, hrest, hpopped, hcounter⟩ := cycle_ret_stack hs.stack_holds hcycle rfl
  obtain ⟨rfl, ha⟩ := List.append_inj' hrest rfl
  cases ha
  refine ⟨s', hcycle, hcells, ?_, hpopped⟩
  have hwrap := Address.toNat_wrap ((512 + next : Nat) : Int)
  have hafter := Address.toNat_next (Address.wrap ((512 + next : Nat) : Int))
  rw [hcounter]
  omega

theorem Session.Stands.setImm (hs : s.Stands program offset l) (hfits : program.length ≤ 3584)
    (hoffset : offset + 2 < program.length)
    (hd : decode (program[offset] ++ program[offset + 1]) = .ok ⟨w, .setImm⟩) :
    ∃ s', cycle .quiet s = .ok ⟨w, .setImm⟩ s' ∧ s'.Stands program (offset + 2) l := by
  obtain ⟨s', hcycle, hcells⟩ :=
    hs.cycle_ok hfits (Nat.lt_of_succ_lt hoffset) hd (by simp) (by simp) rfl fun _ => id
  have hcounter := Option.some.inj (cycle_counter hcycle)
  rw [Machine.behind, if_neg (by simp [Machine.skips]), hs.counter_eq] at hcounter
  refine ⟨s', hcycle, hcells, by omega, ?_⟩
  rw [cycle_other_stack hcycle (by simp) (by simp)]
  exact hs.stack_holds

def nestedCalls : List Byte :=
  [0x22, 0x06, 0, 0, 0, 0, 0x6A, 0x01, 0x22, 0x0C, 0x00, 0xEE, 0x00, 0xEE]

def calling : Session :=
  started .absent nestedCalls

theorem nested_call_returned_from :
    ∃ s₁ s₂ s₃ s₄ s', cycle .quiet calling = .ok ⟨0x2206, .call⟩ s₁ ∧
      CompletedRun s₁ ([(⟨0x6A01, .setImm⟩, s₂), (⟨0x220C, .call⟩, s₃), (⟨0x00EE, .ret⟩, s₄)] ++
        [(⟨0x00EE, .ret⟩, s')]) ∧
      s₃.machine.stack.depth = 2 ∧ s'.machine.counter.toNat = 0x202 ∧
      s'.machine.stack = calling.machine.stack := by
  have hfits : nestedCalls.length ≤ 3584 := by decide
  have hcalling : calling.Stands nestedCalls 0 [] :=
    ⟨fun i hi => started_cell .absent hfits hi, congrArg BitVec.toNat (started_counter .absent hfits),
      CallStack.empty_holds⟩
  obtain ⟨s₁, hcall, h₁⟩ := hcalling.call 6 hfits (by decide) rfl (by decide) rfl
  obtain ⟨s₂, hset, h₂⟩ := h₁.setImm hfits (by decide) rfl
  obtain ⟨s₃, hdeeper, h₃⟩ := h₂.call 12 hfits (by decide) rfl (by decide) rfl
  obtain ⟨s₄, hback, h₄⟩ := h₃.ret hfits (by decide) rfl (by decide)
  obtain ⟨s', hlast, h'⟩ := h₄.ret (l := []) hfits (by decide) rfl (by decide)
  have hrun : CompletedRun s₁ ([(⟨0x6A01, .setImm⟩, s₂), (⟨0x220C, .call⟩, s₃),
      (⟨0x00EE, .ret⟩, s₄)] ++ [(⟨0x00EE, .ret⟩, s')]) := by
    have hstep : ∀ {op : Opcode} {t t' : Session}, cycle .quiet t = .ok op t' →
        CompletedStep t (op, t') t' :=
      fun hcycle => ⟨rfl, .quiet, [], List.forall_mem_nil _, hcycle⟩
    exact ⟨s', .cons (hstep hset) (.cons (hstep hdeeper) (.cons (hstep hback)
      (.single (hstep hlast))))⟩
  have habove : ∀ step ∈ [((⟨0x6A01, .setImm⟩, s₂) : Opcode × Session), (⟨0x220C, .call⟩, s₃),
      (⟨0x00EE, .ret⟩, s₄)], calling.machine.stack.depth < step.2.machine.stack.depth := by
    simp only [List.forall_mem_cons, h₂.stack_holds.depth_eq, h₃.stack_holds.depth_eq,
      h₄.stack_holds.depth_eq, hcalling.stack_holds.depth_eq]
    exact ⟨by decide, by decide, by decide, List.forall_mem_nil _⟩
  obtain ⟨-, hcounter, hstack⟩ := call_matched_by_return (s := calling) (started_reachable _ _)
    hcall rfl hrun habove (h'.stack_holds.depth_eq.trans hcalling.stack_holds.depth_eq.symm)
  refine ⟨s₁, s₂, s₃, s₄, s', hcall, hrun, h₃.stack_holds.depth_eq, ?_, hstack⟩
  rw [hcounter, hcalling.counter_eq]

end Example

end ChipEight
