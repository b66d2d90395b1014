import ChipEight.Proofs.Actions

/-! What is seen of a state after some calls, if each of them either sets it or leaves it alone. -/

namespace ChipEight

open Actions

variable {γ β : Type} {sets : γ → Option β}

/-- The value that the last call sets which sets one at all. -/
def lastSet? (sets : γ → Option β) (calls : List γ) : Option β :=
  (calls.filterMap sets).getLast?

theorem lastSet?_nil : lastSet? sets [] = none := rfl

theorem lastSet?_cons (c : γ) (calls : List γ) :
    lastSet? sets (c :: calls) = (lastSet? sets calls).or (sets c) := by
  unfold lastSet?
  cases hc : sets c with
  | none => simp [hc]
  | some b => simp [hc, List.getLast?_cons]

theorem lastSet?_concat (calls : List γ) (c : γ) :
    lastSet? sets (calls ++ [c]) = (sets c).or (lastSet? sets calls) := by
  cases hc : sets c with
  | none => simp [lastSet?, hc]
  | some b => simp [lastSet?, hc]

theorem lastSet?_eq_none_iff {calls : List γ} :
    lastSet? sets calls = none ↔ ∀ c ∈ calls, sets c = none := by
  simp [lastSet?]

theorem lastSet?_eq_some {calls : List γ} {b : β} (h : lastSet? sets calls = some b) :
    ∃ earlier c later, calls = earlier ++ c :: later ∧ sets c = some b ∧
      ∀ d ∈ later, sets d = none := by
  induction calls with
  | nil => cases h
  | cons c calls ih =>
    rw [lastSet?_cons] at h
    cases hlater : lastSet? sets calls with
    | some b' =>
      rw [hlater, Option.some_or] at h
      obtain ⟨earlier, d, later, rfl, hd⟩ := ih (hlater.trans h)
      exact ⟨c :: earlier, d, later, rfl, hd⟩
    | none =>
      rw [hlater, Option.none_or] at h
      exact ⟨[], c, calls, rfl, h, lastSet?_eq_none_iff.1 hlater⟩

def sinceSet (sets : γ → Option β) (calls : List γ) : List γ :=
  calls.reverse.takeWhile fun c => (sets c).isNone

theorem sinceSet_nil : sinceSet sets [] = [] := rfl

theorem sinceSet_concat (calls : List γ) (c : γ) :
    sinceSet sets (calls ++ [c]) = if (sets c).isNone then c :: sinceSet sets calls else [] := by
  rw [sinceSet, List.reverse_concat, List.takeWhile_cons, sinceSet]

def afterAll {ε σ α : Type} (action : γ → EStateM ε σ α) (s : σ) (calls : List γ) : σ :=
  calls.foldl (fun s c => leftBy (action c) s) s

section After

variable {ε σ α : Type} {action : γ → EStateM ε σ α}

theorem afterAll_cons (s : σ) (c : γ) (calls : List γ) :
    afterAll action s (c :: calls) = afterAll action (leftBy (action c) s) calls := rfl

theorem afterAll_concat (s : σ) (calls : List γ) (c : γ) :
    afterAll action s (calls ++ [c]) = leftBy (action c) (afterAll action s calls) :=
  List.foldl_append

theorem afterAll_keeps {P : σ → Prop} (hkeeps : ∀ c, Keeps P (action c)) {s : σ} (hs : P s)
    (calls : List γ) : P (afterAll action s calls) := by
  induction calls generalizing s with
  | nil => exact hs
  | cons c calls ih => exact ih (hkeeps c s hs)

theorem view_afterAll {P : σ → Prop} (view : σ → β) (hkeeps : ∀ c, Keeps P (action c))
    (hview : ∀ s c, P s → view (leftBy (action c) s) = (sets c).getD (view s)) {s : σ} (hs : P s)
    (calls : List γ) :
    view (afterAll action s calls) = (lastSet? sets calls).getD (view s) := by
  induction calls generalizing s with
  | nil => rfl
  | cons c calls ih =>
    rw [afterAll_cons, ih (hkeeps c s hs), hview s c hs, lastSet?_cons]
    cases lastSet? sets calls <;> rfl

end After

end ChipEight
