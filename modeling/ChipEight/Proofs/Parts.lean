import Mathlib.Data.List.Induction
import ChipEight.Proofs.Access
import ChipEight.Proofs.Backing
import ChipEight.Proofs.Histories

/-! The parts of a machine that hold integers, and its stack, under any calls. A call is refused for the part that it
names, for the value or for the stack, and then changes nothing. -/

namespace ChipEight

open Actions

/-- A place that holds an integer, if there is one of its number. -/
inductive Part
  | register (i : Int)
  | cell (a : Int)
  | delay
  | sound
  | index
  | counter
deriving DecidableEq

namespace Part

def missing? : Part → Option Fault
  | register i => if 0 ≤ i ∧ i ≤ 15 then none else some (.registerIndex i)
  | cell a => if 0 ≤ a ∧ a ≤ 4095 then none else some (.memoryAccess a)
  | delay | sound | index | counter => none

def misfit : Part → Int → Option RangeError
  | register i, v => some (.register (BitVec.ofInt 4 i) v)
  | cell _, v => some (.cell v)
  | delay, v | sound, v => some (.timer v)
  | index, _ | counter, _ => none

def unfit? (p : Part) (v : Int) : Option Fault :=
  if 0 ≤ v ∧ v ≤ 255 then none else (p.misfit v).map .outOfRange

def held : Part → Int → Int
  | index, v | counter, v => v % 4096
  | _, v => v

def read : Part → MachineM Int
  | register i => do return (← MachineM.readV i)
  | cell a => do return (← MachineM.readCell a)
  | delay => do return (← get).delay.value.toNat
  | sound => do return (← get).sound.value.toNat
  | index => do return (← get).index.toNat
  | counter => do return (← get).counter.toNat

def write : Part → Int → MachineM Unit
  | register i, v => MachineM.writeV i v
  | cell a, v => MachineM.writeCell a v
  | delay, v => MachineM.resetDelay v
  | sound, v => MachineM.resetSound v
  | index, v => MachineM.point v
  | counter, v => MachineM.jump v

end Part

def Machine.value (m : Machine) : Part → Int
  | .register i => (m.v (BitVec.ofInt 4 i)).toNat
  | .cell a => (m.memory.cell a.toNat).toNat
  | .delay => m.delay.value.toNat
  | .sound => m.sound.value.toNat
  | .index => m.index.toNat
  | .counter => m.counter.toNat

theorem Nibble.ofInt_toNat (x : Nibble) : BitVec.ofInt 4 x.toNat = x := by
  simp

namespace Registers

variable (r : Registers) {i : Int}

theorem read_of_outside (hi : fit? 4 i = none) : r.read i = .error (.registerIndex i) := by
  rw [read, registerIndex, hi, error_bind]

theorem write_of_outside (hi : fit? 4 i = none) (v : Int) :
    r.write i v = .error (.registerIndex i) := by
  rw [write, registerIndex, hi, error_bind]

theorem write_of_unfit (x : Nibble) {v : Int} (hv : fit? 8 v = none) :
    r.write x.toNat v = .error (.outOfRange (.register x v)) := by
  rw [write, registerIndex, fit?_toNat, ok_bind, fit, hv, error_bind]

end Registers

theorem Timer.ofInt_of_unfit {v : Int} (hv : fit? 8 v = none) :
    ofInt v = .error (.outOfRange (.timer v)) := by
  rw [ofInt, fit, hv, error_bind]

namespace Part

theorem missing?_register_eq_some_iff {i : Int} {f : Fault} :
    (register i).missing? = some f ↔ fit? 4 i = none ∧ .registerIndex i = f := by
  rw [missing?, Option.ite_none_left_eq_some, Option.some_inj, fit?_eq_none_iff]
  exact and_congr_left' (by omega)

theorem missing?_cell_eq_some_iff {a : Int} {f : Fault} :
    (cell a).missing? = some f ↔ ¬ Addressed a ∧ .memoryAccess a = f := by
  rw [missing?, Option.ite_none_left_eq_some, Option.some_inj, Addressed]
  exact and_congr_left' (by omega)

theorem exists_of_register {i : Int} (hi : (register i).missing? = none) :
    ∃ x : Nibble, i = x.toNat := by
  refine (exists_toNat_eq_or_unfit 4 i).resolve_right fun hnone => ?_
  rw [missing?_register_eq_some_iff.2 ⟨hnone, rfl⟩] at hi
  cases hi

theorem exists_of_cell {a : Int} (ha : (cell a).missing? = none) : ∃ k : Nat, a = k ∧ k < 4096 := by
  refine Addressed.exists_lt (by_contra fun hnot => ?_)
  rw [missing?_cell_eq_some_iff.2 ⟨hnot, rfl⟩] at ha
  cases ha

theorem unfit?_eq_some_iff {p : Part} {v : Int} {f : Fault} :
    p.unfit? v = some f ↔ fit? 8 v = none ∧ (p.misfit v).map .outOfRange = some f := by
  rw [unfit?, Option.ite_none_left_eq_some, fit?_byte_eq_none_iff]

theorem exists_byte {p : Part} {v : Int} {e : RangeError} (he : p.misfit v = some e)
    (hv : p.unfit? v = none) : ∃ b : Byte, v = b.toNat := by
  refine (exists_toNat_eq_or_unfit 8 v).resolve_right fun hnone => ?_
  have hunfit : p.unfit? v = some (.outOfRange e) := unfit?_eq_some_iff.2 ⟨hnone, by rw [he]; rfl⟩
  rw [hunfit] at hv
  cases hv

variable (m : Machine) {p q : Part} {f : Fault} {v : Int}

open MachineM

theorem read_of_missing (hp : p.missing? = some f) : p.read m = .error f m := by
  cases p with
  | register i =>
    obtain ⟨hi, rfl⟩ := missing?_register_eq_some_iff.1 hp
    rw [read, bind_apply, readV_of_error m (Registers.read_of_outside _ hi), proceed_error]
  | cell a =>
    obtain ⟨ha, rfl⟩ := missing?_cell_eq_some_iff.1 hp
    rw [read, bind_apply, readCell_of_error m (Memory.read_of_outside _ ha), proceed_error]
  | delay | sound | index | counter => cases hp

theorem write_of_missing (hp : p.missing? = some f) (v : Int) : p.write v m = .error f m := by
  cases p with
  | register i =>
    obtain ⟨hi, rfl⟩ := missing?_register_eq_some_iff.1 hp
    exact writeV_of_error m (Registers.write_of_outside _ hi v)
  | cell a =>
    obtain ⟨ha, rfl⟩ := missing?_cell_eq_some_iff.1 hp
    exact writeCell_of_error m (Memory.write_of_outside _ ha v)
  | delay | sound | index | counter => cases hp

theorem write_of_unfit (hp : p.missing? = none) (hv : p.unfit? v = some f) :
    p.write v m = .error f m := by
  obtain ⟨hfit, hf⟩ := unfit?_eq_some_iff.1 hv
  cases p with
  | register i =>
    obtain ⟨x, rfl⟩ := exists_of_register hp
    rw [misfit, Nibble.ofInt_toNat] at hf
    cases hf
    exact writeV_of_error m (Registers.write_of_unfit _ x hfit)
  | cell a =>
    obtain ⟨k, rfl, hk⟩ := exists_of_cell hp
    cases hf
    exact writeCell_of_error m (Memory.write_of_unfit _ hk hfit)
  | delay =>
    cases hf
    exact resetDelay_of_error m (Timer.ofInt_of_unfit hfit)
  | sound =>
    cases hf
    exact resetSound_of_error m (Timer.ofInt_of_unfit hfit)
  | index | counter => cases hf

theorem read_of_present (hp : p.missing? = none) : p.read m = .ok (m.value p) m := by
  cases p with
  | register i =>
    obtain ⟨x, rfl⟩ := exists_of_register hp
    rw [read, bind_apply, readV_apply, proceed_ok, pure_apply, Machine.value, Nibble.ofInt_toNat]
  | cell a =>
    obtain ⟨k, rfl, hk⟩ := exists_of_cell hp
    rw [read, bind_apply, readCell_of_lt m hk, proceed_ok]
    rfl
  | delay | sound | index | counter => rfl

theorem write_of_taken (hp : p.missing? = none) (hv : p.unfit? v = none) :
    ∃ m', p.write v m = .ok () m' ∧ m'.stack = m.stack ∧
      ∀ q : Part, q.missing? = none → m'.value q = if q = p then p.held v else m.value q := by
  cases p with
  | register i =>
    obtain ⟨x, rfl⟩ := exists_of_register hp
    obtain ⟨b, rfl⟩ := exists_byte rfl hv
    refine ⟨m.setV x b, writeV_apply m x b rfl, rfl, fun q hq => ?_⟩
    cases q with
    | register j =>
      obtain ⟨y, rfl⟩ := exists_of_register hq
      have hsame : register y.toNat = register x.toNat ↔ y = x := by
        rw [register.injEq, Int.ofNat_inj, BitVec.toNat_inj]
      rw [Machine.value, Machine.value, Nibble.ofInt_toNat, Machine.v, Machine.setV, Bank.get_set,
        if_congr hsame rfl rfl]
      split <;> rfl
    | cell | delay | sound | index | counter => rfl
  | cell a =>
    obtain ⟨k, rfl, hk⟩ := exists_of_cell hp
    obtain ⟨b, rfl⟩ := exists_byte rfl hv
    refine ⟨_, writeCell_of_lt m hk b rfl, rfl, fun q hq => ?_⟩
    cases q with
    | cell a =>
      obtain ⟨j, rfl, hj⟩ := exists_of_cell hq
      have hsame : cell j = cell k ↔ j = k := by
        rw [cell.injEq, Int.ofNat_inj]
      rw [Machine.value, Machine.value, Int.toNat_natCast, cell_overwrite_single _ hk,
        if_congr hsame rfl rfl]
      split <;> rfl
    | register | delay | sound | index | counter => rfl
  | delay =>
    obtain ⟨b, rfl⟩ := exists_byte rfl hv
    exact ⟨_, resetDelay_apply m b, rfl, fun q _ => by cases q <;> rfl⟩
  | sound =>
    obtain ⟨b, rfl⟩ := exists_byte rfl hv
    exact ⟨_, resetSound_apply m b, rfl, fun q _ => by cases q <;> rfl⟩
  | index =>
    refine ⟨_, point_apply m v, rfl, fun q _ => ?_⟩
    cases q with
    | index => exact Address.toNat_wrap v
    | register | cell | delay | sound | counter => rfl
  | counter =>
    refine ⟨_, jump_apply m v, rfl, fun q _ => ?_⟩
    cases q with
    | counter => exact Address.toNat_wrap v
    | register | cell | delay | sound | index => rfl

theorem held_value (p : Part) : p.held (m.value p) = m.value p := by
  have haddress : ∀ a : Address, (a.toNat : Int) % 4096 = a.toNat := by
    intro a
    have := a.isLt
    omega
  cases p with
  | index => exact haddress m.index
  | counter => exact haddress m.counter
  | register | cell | delay | sound => rfl

theorem held_add (p : Part) (v w : Int) : p.held (p.held v + w) = p.held (v + w) := by
  cases p with
  | index | counter => exact Int.emod_add_emod v 4096 w
  | register | cell | delay | sound => rfl

end Part

inductive PartCall
  | read (p : Part)
  | write (p : Part) (v : Int)
  | step (size : Int)
  | push (a : Int)
  | pop

namespace PartCall

def action : PartCall → MachineM (Option Int)
  | read p => do return some (← p.read)
  | write p v => do
    p.write v
    return none
  | step size => do
    modify fun m => { m with counter := m.counter.step size }
    return none
  | push a => do
    MachineM.push a
    return none
  | pop => do return some (← MachineM.pop)

/-- Why a call is refused, if it is. The part is looked for before the value is looked at. -/
def refusal? (m : Machine) : PartCall → Option Fault
  | read p => p.missing?
  | write p v => p.missing?.or (p.unfit? v)
  | step _ => none
  | push _ => if m.stack.live.length = 16 then some .stackOverflow else none
  | pop => if m.stack.live.length = 0 then some .stackUnderflow else none

def told (m : Machine) : PartCall → Option Int
  | read p => some (m.value p)
  | pop => m.stack.live.getLast?
  | write _ _ | step _ | push _ => none

def sets? (p : Part) : PartCall → Option Int
  | write q v => if q = p ∧ p.unfit? v = none then some v else none
  | _ => none

def moves (p : Part) : PartCall → Int
  | step size => if p = .counter then size else 0
  | _ => 0

def becomes (p : Part) (old : Int) (c : PartCall) : Int :=
  p.held ((c.sets? p).getD old + c.moves p)

def stackBecomes (live : List Int) : PartCall → List Int
  | push a => if live.length = 16 then live else live ++ [a]
  | pop => live.dropLast
  | _ => live

def movedSince (p : Part) (calls : List PartCall) : Int :=
  ((sinceSet (sets? p) calls).map (moves p)).sum

def valueAfter (p : Part) (before : Int) (calls : List PartCall) : Int :=
  p.held ((lastSet? (sets? p) calls).getD before + movedSince p calls)

variable (m : Machine) {c : PartCall} {p : Part} {f : Fault}

theorem push_granted_iff {a : Int} :
    (push a).refusal? m = none ↔ m.stack.live.length ≠ 16 := by
  simp [refusal?]

theorem pop_granted_iff : pop.refusal? m = none ↔ m.stack.live.length ≠ 0 := by
  simp [refusal?]

theorem action_of_refused (hc : c.refusal? m = some f) : c.action m = .error f m := by
  cases c with
  | read p => rw [action, bind_apply, Part.read_of_missing m hc, proceed_error]
  | write p v =>
    have hwrite : p.write v m = .error f m := by
      obtain hp | ⟨hp, hv⟩ := Option.or_eq_some_iff.1 hc
      · exact Part.write_of_missing m hp v
      · exact Part.write_of_unfit m hp hv
    rw [action, bind_apply, hwrite, proceed_error]
  | step => cases hc
  | push a =>
    obtain ⟨hfull, hf⟩ := Option.ite_none_right_eq_some.1 hc
    cases hf
    rw [m.stack.length_live] at hfull
    rw [action, bind_apply, MachineM.push_of_full m a hfull, proceed_error]
  | pop =>
    obtain ⟨hempty, hf⟩ := Option.ite_none_right_eq_some.1 hc
    cases hf
    rw [m.stack.length_live] at hempty
    rw [action, bind_apply, MachineM.pop_of_empty m hempty, proceed_error]

theorem moves_of_sets {v : Int} (hsets : c.sets? p = some v) : c.moves p = 0 := by
  cases c with
  | step => cases hsets
  | read | write | push | pop => rfl

theorem becomes_of_sets {v : Int} (hsets : c.sets? p = some v) (old : Int) :
    c.becomes p old = p.held v := by
  rw [becomes, hsets, moves_of_sets hsets, Option.getD_some, Int.add_zero]

theorem becomes_value (hsets : c.sets? p = none) (hmoves : c.moves p = 0) :
    c.becomes p (m.value p) = m.value p := by
  rw [becomes, hsets, hmoves, Option.getD_none, Int.add_zero, Part.held_value]

theorem becomes_of_refused (hc : c.refusal? m = some f) (hp : p.missing? = none) :
    c.becomes p (m.value p) = m.value p := by
  cases c with
  | write q v =>
    refine becomes_value m (if_neg ?_) rfl
    rintro ⟨rfl, hv⟩
    rw [refusal?, hp, hv] at hc
    cases hc
  | step => cases hc
  | read | push | pop => exact becomes_value m rfl rfl

theorem stackBecomes_of_refused (hc : c.refusal? m = some f) :
    c.stackBecomes m.stack.live = m.stack.live := by
  cases c with
  | push => exact if_pos (Option.ite_none_right_eq_some.1 hc).1
  | pop =>
    have hempty := List.eq_nil_of_length_eq_zero (Option.ite_none_right_eq_some.1 hc).1
    rw [stackBecomes, hempty, List.dropLast_nil]
  | read | write | step => rfl

theorem action_read (hp : p.missing? = none) : (read p).action m = .ok (some (m.value p)) m := by
  rw [action, bind_apply, Part.read_of_present m hp, proceed_ok]
  rfl

theorem action_of_granted (hc : c.refusal? m = none) :
    ∃ m', c.action m = .ok (c.told m) m' ∧
      (∀ p : Part, p.missing? = none → m'.value p = c.becomes p (m.value p)) ∧
      m'.stack.live = c.stackBecomes m.stack.live := by
  cases c with
  | read p =>
    exact ⟨m, action_read m hc, fun q _ => (becomes_value m rfl rfl).symm, rfl⟩
  | write p v =>
    obtain ⟨hp, hv⟩ := Option.or_eq_none_iff.1 hc
    obtain ⟨m', hwrite, hstack, hvalue⟩ := Part.write_of_taken m hp hv
    refine ⟨m', ?_, fun q hq => ?_, congrArg CallStack.live hstack⟩
    · rw [action, bind_apply, hwrite, proceed_ok]
      rfl
    · rw [hvalue q hq]
      split
      · next hqp =>
        subst hqp
        have hsets : (write q v).sets? q = some v := if_pos ⟨rfl, hv⟩
        exact (becomes_of_sets hsets _).symm
      · next hqp =>
        have hsets : (write p v).sets? q = none := if_neg fun h => hqp h.1.symm
        exact (becomes_value m hsets rfl).symm
  | step size =>
    refine ⟨{ m with counter := m.counter.step size }, rfl, fun q _ => ?_, rfl⟩
    by_cases hq : q = .counter
    · rw [hq]
      exact Address.toNat_wrap _
    · rw [becomes_value (c := step size) m rfl (if_neg hq)]
      cases q with
      | counter => exact absurd rfl hq
      | register | cell | delay | sound | index => rfl
  | push a =>
    have hroom := (push_granted_iff m).1 hc
    obtain ⟨stack, hpush⟩ := CallStack.push_of_room hroom a
    refine ⟨{ m with stack }, ?_, fun q _ => (becomes_value (c := push a) m rfl rfl).symm, ?_⟩
    · rw [action, bind_apply, MachineM.push_of_ok m hpush, proceed_ok]
      rfl
    · rw [stackBecomes, if_neg hroom, CallStack.live_of_push hpush]
  | pop =>
    obtain ⟨a, stack, hpop⟩ := CallStack.pop_of_held ((pop_granted_iff m).1 hc)
    refine ⟨{ m with stack }, ?_, fun q _ => (becomes_value (c := pop) m rfl rfl).symm, ?_⟩
    · rw [action, bind_apply, MachineM.pop_of_ok m hpop, proceed_ok, told,
        CallStack.getLast?_live_of_pop hpop]
      rfl
    · rw [stackBecomes, CallStack.live_of_pop hpop, List.dropLast_concat]

theorem granted_of_ok {answer : Option Int} {m' : Machine} (h : c.action m = .ok answer m') :
    c.refusal? m = none ∧ (∀ p : Part, p.missing? = none → m'.value p = c.becomes p (m.value p)) ∧
      m'.stack.live = c.stackBecomes m.stack.live := by
  cases hc : c.refusal? m with
  | some f =>
    rw [action_of_refused m hc] at h
    cases h
  | none =>
    obtain ⟨left, hdone, hleft⟩ := action_of_granted m hc
    rw [hdone] at h
    cases h
    exact ⟨rfl, hleft⟩

theorem leftBy_action (c : PartCall) :
    (∀ p : Part, p.missing? = none → (leftBy c.action m).value p = c.becomes p (m.value p)) ∧
      (leftBy c.action m).stack.live = c.stackBecomes m.stack.live := by
  cases hc : c.refusal? m with
  | some f =>
    rw [leftBy_of_error (action_of_refused m hc)]
    exact ⟨fun p hp => (becomes_of_refused m hc hp).symm, (stackBecomes_of_refused m hc).symm⟩
  | none =>
    obtain ⟨m', haction, hleft⟩ := action_of_granted m hc
    rwa [leftBy_of_ok haction]

theorem movedSince_concat (p : Part) (calls : List PartCall) (c : PartCall) :
    movedSince p (calls ++ [c]) =
      if (c.sets? p).isNone then c.moves p + movedSince p calls else 0 := by
  rw [movedSince, sinceSet_concat]
  split <;> rfl

theorem valueAfter_concat (p : Part) (before : Int) (calls : List PartCall) (c : PartCall) :
    valueAfter p before (calls ++ [c]) = c.becomes p (valueAfter p before calls) := by
  rw [valueAfter, lastSet?_concat, movedSince_concat]
  cases hc : c.sets? p with
  | some v =>
    rw [becomes_of_sets hc, Option.some_or, Option.getD_some]
    simp
  | none =>
    rw [becomes, hc, Option.none_or, Option.getD_none, valueAfter, Part.held_add, Int.add_assoc,
      Int.add_comm (movedSince p calls)]
    simp

theorem value_afterAll (hp : p.missing? = none) (calls : List PartCall) :
    (afterAll action m calls).value p = valueAfter p (m.value p) calls := by
  induction calls using List.reverseRecOn with
  | nil =>
    have hstart := (Part.held_value m p).symm
    simpa [afterAll, valueAfter, movedSince, lastSet?_nil, sinceSet_nil] using hstart
  | append_singleton calls c ih =>
    rw [afterAll_concat, valueAfter_concat, (leftBy_action _ c).1 p hp, ih]

theorem live_afterAll (calls : List PartCall) :
    (afterAll action m calls).stack.live = calls.foldl stackBecomes m.stack.live := by
  induction calls generalizing m with
  | nil => rfl
  | cons c calls ih => rw [afterAll_cons, ih, (leftBy_action m c).2, List.foldl_cons]

end PartCall

/-- A call fails exactly if it is to be refused, and then changes nothing. What is written or pushed is read or popped
next, and all that has not been written is read as before. -/
structure Machine.Guards (m : Machine) : Prop where
  fails_iff : ∀ (c : PartCall) f m', c.action m = .error f m' ↔ c.refusal? m = some f ∧ m' = m
  grants : ∀ c : PartCall, c.refusal? m = none → ∃ m', c.action m = .ok (c.told m) m' ∧
    (∀ p : Part, p.missing? = none → m'.value p = c.becomes p (m.value p)) ∧
    m'.stack.live = c.stackBecomes m.stack.live
  written : ∀ p v m', (PartCall.write p v).action m = .ok none m' →
    (PartCall.read p).action m' = .ok (some (p.held v)) m' ∧ ∀ q ≠ p, q.missing? = none →
      ∃ w, (PartCall.read q).action m = .ok w m ∧ (PartCall.read q).action m' = .ok w m'
  pushed : ∀ a m', (PartCall.push a).action m = .ok none m' →
    ∃ m'', PartCall.pop.action m' = .ok (some a) m'' ∧ m''.stack.live = m.stack.live

open PartCall in
theorem Machine.guards (m : Machine) : m.Guards where
  fails_iff c f m' := by
    constructor
    · intro hfails
      cases hc : c.refusal? m with
      | some g =>
        rw [action_of_refused m hc] at hfails
        cases hfails
        exact ⟨rfl, rfl⟩
      | none =>
        obtain ⟨left, hdone, -⟩ := action_of_granted m hc
        rw [hdone] at hfails
        cases hfails
    · rintro ⟨hc, rfl⟩
      exact action_of_refused m' hc
  grants c := action_of_granted m
  written p v m' hwritten := by
    obtain ⟨hc, hvalue, -⟩ := granted_of_ok m hwritten
    obtain ⟨hp, hv⟩ := Option.or_eq_none_iff.1 hc
    refine ⟨?_, fun q hqp hq => ⟨some (m.value q), action_read m hq, ?_⟩⟩
    · have hsets : (write p v).sets? p = some v := if_pos ⟨rfl, hv⟩
      rw [action_read m' hp, hvalue p hp, becomes_of_sets hsets]
    · have hsets : (write p v).sets? q = none := if_neg fun h => hqp h.1.symm
      rw [action_read m' hq, hvalue q hq, becomes_value m hsets rfl]
  pushed a m' hpushed := by
    obtain ⟨hc, -, hlive⟩ := granted_of_ok m hpushed
    rw [stackBecomes, if_neg ((push_granted_iff m).1 hc)] at hlive
    have hpop : pop.refusal? m' = none := (pop_granted_iff m').2 (by simp [hlive])
    obtain ⟨m'', hpopped, -, hleft⟩ := action_of_granted m' hpop
    rw [told, hlive, List.getLast?_concat] at hpopped
    rw [stackBecomes, hlive, List.dropLast_concat] at hleft
    exact ⟨m'', hpopped, hleft⟩

/-- However the parts of a machine have been used, its next calls are refused as they should be, and all that it holds
is what the calls so far have made of it. -/
theorem parts_follow_calls (m : Machine) (calls : List PartCall) :
    let m' := afterAll PartCall.action m calls
    m'.Guards ∧
      (∀ p : Part, p.missing? = none → m'.value p = PartCall.valueAfter p (m.value p) calls) ∧
      m'.stack.live = calls.foldl PartCall.stackBecomes m.stack.live :=
  ⟨Machine.guards _, fun _ hp => PartCall.value_afterAll m hp calls, PartCall.live_afterAll m calls⟩

theorem fresh_parts_used :
    let calls : List PartCall :=
      [.write (.cell 4095) 7, .write (.cell 4096) 8, .write .counter (-2), .push 9, .step 5]
    let m := afterAll PartCall.action .fresh calls
    (Part.missing? (.cell 4095) = none ∧ Part.missing? .counter = none) ∧
      m.value (.cell 4095) = 7 ∧ m.value .counter = 3 ∧ m.stack.live = [9] ∧
      (PartCall.write (.register 15) 256).action m = .error (.outOfRange (.register 15 256)) m := by
  intro calls m
  obtain ⟨hguards, hvalue, hlive⟩ := parts_follow_calls .fresh calls
  exact ⟨⟨rfl, rfl⟩, hvalue (.cell 4095) rfl, hvalue .counter rfl, hlive,
    (hguards.fails_iff _ _ _).2 ⟨rfl, rfl⟩⟩

end ChipEight
