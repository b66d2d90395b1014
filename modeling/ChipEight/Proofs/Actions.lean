/-! Actions on a state that may fail, applied to a state. -/

namespace ChipEight.Actions

variable {ε σ α β : Type}

def proceed (r : EStateM.Result ε σ α) (f : α → EStateM ε σ β) : EStateM.Result ε σ β :=
  match r with
  | .ok a s => f a s
  | .error e s => .error e s

@[simp] theorem proceed_ok (a : α) (s : σ) (f : α → EStateM ε σ β) :
    proceed (.ok a s) f = f a s := rfl

@[simp] theorem proceed_error (e : ε) (s : σ) (f : α → EStateM ε σ β) :
    proceed (.error e s) f = .error e s := rfl

theorem bind_apply (x : EStateM ε σ α) (f : α → EStateM ε σ β) (s : σ) :
    (x >>= f) s = proceed (x s) f := rfl

theorem pure_apply (a : α) (s : σ) : (pure a : EStateM ε σ α) s = .ok a s := rfl

theorem get_apply (s : σ) : (get : EStateM ε σ σ) s = .ok s s := rfl

theorem modify_apply (f : σ → σ) (s : σ) : (modify f : EStateM ε σ Unit) s = .ok () (f s) := rfl

/-- The state that an action leaves, be it completed or not. -/
def leftBy (x : EStateM ε σ α) (s : σ) : σ :=
  match x s with
  | .ok _ s' => s'
  | .error _ s' => s'

theorem leftBy_of_ok {x : EStateM ε σ α} {s s' : σ} {a : α} (h : x s = .ok a s') :
    leftBy x s = s' := by
  rw [leftBy, h]

theorem leftBy_of_error {x : EStateM ε σ α} {s s' : σ} {e : ε} (h : x s = .error e s') :
    leftBy x s = s' := by
  rw [leftBy, h]

theorem leftBy_bind_of_ok {x : EStateM ε σ α} {s s' : σ} {a : α} (h : x s = .ok a s')
    (f : α → EStateM ε σ β) : leftBy (x >>= f) s = leftBy (f a) s' := by
  rw [leftBy, bind_apply, h, proceed_ok, leftBy]

theorem leftBy_bind_of_error {x : EStateM ε σ α} {s s' : σ} {e : ε} (h : x s = .error e s')
    (f : α → EStateM ε σ β) : leftBy (x >>= f) s = s' := by
  rw [leftBy, bind_apply, h, proceed_error]

theorem leftBy_discard (x : EStateM ε σ α) (b : β) (s : σ) :
    leftBy (x >>= fun _ => pure b) s = leftBy x s := by
  cases h : x s with
  | ok a s' => rw [leftBy_bind_of_ok h, leftBy_of_ok h, leftBy_of_ok (pure_apply b s')]
  | error e s' => rw [leftBy_bind_of_error h, leftBy_of_error h]

/-- The action keeps a property of the state, also where it fails. -/
def Keeps (P : σ → Prop) (x : EStateM ε σ α) : Prop :=
  ∀ s, P s → P (leftBy x s)

namespace Keeps

variable {P : σ → Prop}

theorem pure (a : α) : Keeps P (Pure.pure a : EStateM ε σ α) := fun _ hs => hs

theorem modify {f : σ → σ} (hf : ∀ s, P s → P (f s)) :
    Keeps P (modifyGet fun s => ((), f s) : EStateM ε σ Unit) := hf

theorem bind {x : EStateM ε σ α} {f : α → EStateM ε σ β} (hx : Keeps P x)
    (hf : ∀ a, Keeps P (f a)) : Keeps P (x >>= f) := by
  intro s hs
  have hs' := hx s hs
  unfold leftBy at hs' ⊢
  rw [bind_apply]
  cases hxs : x s with
  | ok a s' =>
    rw [hxs] at hs'
    exact hf a s' hs'
  | error e s' =>
    rw [hxs] at hs'
    exact hs'

end Keeps

end ChipEight.Actions
