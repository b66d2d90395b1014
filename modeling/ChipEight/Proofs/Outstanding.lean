import Mathlib.Data.List.Induction
import ChipEight.Proofs.Histories
import ChipEight.Proofs.Stack

/-! The stack beside a list of at most sixteen addresses that is called like it. -/

namespace ChipEight

open Actions

inductive StackCall
  | push (a : Int)
  | pop
deriving DecidableEq

namespace StackCall

def action : StackCall → EStateM Fault CallStack (Option Int)
  | push a, s =>
    match s.push a with
    | .ok t => .ok none t
    | .error f => .error f s
  | pop, s =>
    match s.pop with
    | .ok (a, t) => .ok (some a) t
    | .error f => .error f s

def onList : StackCall → EStateM Fault (List Int) (Option Int)
  | push a, l => if l.length = 16 then .error .stackOverflow l else .ok none (l ++ [a])
  | pop, l =>
    match l.getLast? with
    | none => .error .stackUnderflow l
    | some a => .ok (some a) l.dropLast

/-- A stack and a list have told the same or failed for the same reason, and the one holds the other. -/
inductive Agree : EStateM.Result Fault CallStack (Option Int) →
    EStateM.Result Fault (List Int) (Option Int) → Prop
  | granted {s : CallStack} {l : List Int} (answer : Option Int) (hs : s.Holds l) :
      Agree (.ok answer s) (.ok answer l)
  | refused {s : CallStack} {l : List Int} (f : Fault) (hs : s.Holds l) :
      Agree (.error f s) (.error f l)

variable {s : CallStack} {l : List Int} {a : Int}

theorem action_push_of_full (hs : s.Holds l) (hl : l.length = 16) (a : Int) :
    (push a).action s = .error .stackOverflow s := by
  rw [action, CallStack.push_of_full (hs.depth_eq.trans hl)]

theorem action_push_of_room (hs : s.Holds l) (hl : l.length ≠ 16) (a : Int) :
    ∃ t, (push a).action s = .ok none t ∧ t.Holds (l ++ [a]) := by
  obtain ⟨t, hpush, ht⟩ := hs.push (Nat.lt_of_le_of_ne hs.length_le hl) a
  exact ⟨t, by rw [action, hpush], ht⟩

theorem action_pop_of_empty (hs : s.Holds []) : pop.action s = .error .stackUnderflow s := by
  rw [action, CallStack.pop_of_empty hs.depth_eq]

theorem action_pop_of_concat (hs : s.Holds (l ++ [a])) :
    ∃ t, pop.action s = .ok (some a) t ∧ t.Holds l := by
  obtain ⟨t, hpop, ht⟩ := hs.pop
  exact ⟨t, by rw [action, hpop], ht⟩

theorem onList_pop_concat (l : List Int) (a : Int) : pop.onList (l ++ [a]) = .ok (some a) l := by
  rw [onList, List.getLast?_concat, List.dropLast_concat]

theorem agree (hs : s.Holds l) (c : StackCall) : Agree (c.action s) (c.onList l) := by
  cases c with
  | push a =>
    by_cases hl : l.length = 16
    · rw [action_push_of_full hs hl, onList, if_pos hl]
      exact .refused _ hs
    · obtain ⟨t, hpush, ht⟩ := action_push_of_room hs hl a
      rw [hpush, onList, if_neg hl]
      exact .granted _ ht
  | pop =>
    obtain rfl | ⟨l, a, rfl⟩ := l.eq_nil_or_concat
    · rw [action_pop_of_empty hs]
      exact .refused _ hs
    · rw [List.concat_eq_append] at hs ⊢
      obtain ⟨t, hpop, ht⟩ := action_pop_of_concat hs
      rw [hpop, onList_pop_concat]
      exact .granted _ ht

theorem Agree.holds {x : EStateM Fault CallStack (Option Int)}
    {y : EStateM Fault (List Int) (Option Int)} (h : Agree (x s) (y l)) :
    (leftBy x s).Holds (leftBy y l) := by
  unfold leftBy
  generalize x s = left, y l = right at h
  cases h with
  | granted _ hs => exact hs
  | refused _ hs => exact hs

def accepted? (s : CallStack) : StackCall → Option Int
  | push a =>
    match (push a).action s with
    | .ok .. => some a
    | .error .. => none
  | pop => none

def returned? (s : CallStack) (c : StackCall) : Option Int :=
  match c.action s with
  | .ok answer _ => answer
  | .error .. => none

def noted (note : CallStack → StackCall → Option Int) (s : CallStack) : List StackCall → List Int
  | [] => []
  | c :: calls => (note s c).toList ++ noted note (leftBy c.action s) calls

theorem noted_concat (note : CallStack → StackCall → Option Int) (s : CallStack)
    (calls : List StackCall) (c : StackCall) :
    noted note s (calls ++ [c]) =
      noted note s calls ++ (note (afterAll action s calls) c).toList := by
  induction calls generalizing s with
  | nil => simp [noted, afterAll]
  | cons d calls ih => simp [noted, ih, afterAll_cons]

/-- A list is what remains, in order, of all that has been pushed without what has been popped. -/
structure Remains (l pushed popped : List Int) : Prop where
  sublist : l.Sublist pushed
  perm : pushed.Perm (l ++ popped)

theorem Remains.pushed {pushed popped : List Int} (h : Remains l pushed popped) (a : Int) :
    Remains (l ++ [a]) (pushed ++ [a]) popped where
  sublist := h.sublist.append_right [a]
  perm := by
    have hlast : (l ++ (popped ++ [a])).Perm (l ++ ([a] ++ popped)) :=
      List.perm_append_comm.append_left l
    rw [← List.append_assoc, ← List.append_assoc] at hlast
    exact (h.perm.append_right [a]).trans hlast

theorem Remains.popped {pushed popped : List Int} (h : Remains (l ++ [a]) pushed popped) :
    Remains l pushed (popped ++ [a]) where
  sublist := (List.sublist_append_left l [a]).trans h.sublist
  perm := by
    have hlast : (l ++ ([a] ++ popped)).Perm (l ++ (popped ++ [a])) :=
      List.perm_append_comm.append_left l
    rw [← List.append_assoc] at hlast
    exact h.perm.trans hlast

theorem Remains.step {pushed popped : List Int} (h : Remains l pushed popped) (hs : s.Holds l)
    (c : StackCall) :
    Remains (leftBy c.onList l) (pushed ++ (accepted? s c).toList)
      (popped ++ (returned? s c).toList) := by
  -- A call that is refused leaves the list and both records as they are.
  cases c with
  | push a =>
    by_cases hl : l.length = 16
    · have hlist : leftBy (push a).onList l = l := leftBy_of_error (if_pos hl)
      rw [hlist, accepted?, returned?, action_push_of_full hs hl]
      simpa using h
    · obtain ⟨t, hpush, -⟩ := action_push_of_room hs hl a
      have hlist : leftBy (push a).onList l = l ++ [a] := leftBy_of_ok (if_neg hl)
      rw [hlist, accepted?, returned?, hpush]
      simpa using h.pushed a
  | pop =>
    obtain rfl | ⟨l, a, rfl⟩ := l.eq_nil_or_concat
    · have hlist : leftBy pop.onList [] = [] := leftBy_of_error rfl
      rw [hlist, accepted?, returned?, action_pop_of_empty hs]
      simpa using h
    · rw [List.concat_eq_append] at hs h ⊢
      obtain ⟨t, hpop, -⟩ := action_pop_of_concat hs
      rw [leftBy_of_ok (onList_pop_concat l a), accepted?, returned?, hpop]
      simpa using h.popped

theorem holds_afterAll (calls : List StackCall) :
    (afterAll action .empty calls).Holds (afterAll onList [] calls) := by
  induction calls using List.reverseRecOn with
  | nil => exact CallStack.empty_holds
  | append_singleton calls c ih =>
    rw [afterAll_concat, afterAll_concat]
    exact (agree ih c).holds

theorem remains_afterAll (calls : List StackCall) :
    Remains (afterAll onList [] calls) (noted accepted? .empty calls)
      (noted returned? .empty calls) := by
  induction calls using List.reverseRecOn with
  | nil => exact ⟨.slnil, .nil⟩
  | append_singleton calls c ih =>
    rw [afterAll_concat, noted_concat, noted_concat]
    exact ih.step (holds_afterAll calls) c

end StackCall

/-- However an empty stack has been called, it is a list of at most sixteen addresses followed by zeros, those pushed
that have not been popped, the oldest first. Of the next call both make the same. -/
theorem stack_follows_list (calls : List StackCall) :
    let s := afterAll StackCall.action .empty calls
    let l := afterAll StackCall.onList [] calls
    (l.length ≤ 16 ∧ s.Holds l) ∧
      StackCall.Remains l (StackCall.noted StackCall.accepted? .empty calls)
        (StackCall.noted StackCall.returned? .empty calls) ∧
      ∀ c : StackCall, StackCall.Agree (c.action s) (c.onList l) := by
  intro s l
  have hs : s.Holds l := StackCall.holds_afterAll calls
  exact ⟨⟨hs.length_le, hs⟩, StackCall.remains_afterAll calls, StackCall.agree hs⟩

end ChipEight
