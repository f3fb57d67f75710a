import Mathlib.Tactic.Common

/-!
# Programs with a state that may fail

What such a program has changed before it fails stays changed. `outcome` forgets that state,
`After` speaks of it.
-/

namespace Stateful

variable {ε σ α β : Type} {s : σ}

def outcome (x : EStateM ε σ α) (s : σ) : Except ε σ :=
  match x s with
  | .ok _ s => .ok s
  | .error e _ => .error e

/-- The state that is left behind meets `done` or, after a failure, `failed`. -/
def After (x : EStateM ε σ α) (s : σ) (done : α → σ → Prop) (failed : ε → σ → Prop) : Prop :=
  match x s with
  | .ok a s => done a s
  | .error e s => failed e s

/-! ### Without the state of a failure -/

@[simp] theorem outcome_pure (a : α) : outcome (pure a : EStateM ε σ α) s = .ok s := rfl

@[simp] theorem outcome_throw (e : ε) : outcome (throw e : EStateM ε σ α) s = .error e := rfl

@[simp] theorem outcome_modify (f : σ → σ) : outcome (modify f : EStateM ε σ PUnit) s = .ok (f s) := rfl

@[simp] theorem outcome_pure_bind (a : α) (f : α → EStateM ε σ β) : outcome (pure a >>= f) s = outcome (f a) s := rfl

@[simp] theorem outcome_throw_bind (e : ε) (f : α → EStateM ε σ β) : outcome (throw e >>= f) s = .error e := rfl

@[simp] theorem outcome_get_bind (f : σ → EStateM ε σ β) : outcome (get >>= f) s = outcome (f s) s := rfl

@[simp] theorem outcome_modify_bind (f : σ → σ) (g : PUnit → EStateM ε σ β) :
    outcome (modify f >>= g) s = outcome (g ⟨⟩) (f s) := rfl

@[simp] theorem outcome_ite (c : Prop) [Decidable c] (x y : EStateM ε σ α) :
    outcome (if c then x else y) s = if c then outcome x s else outcome y s := by
  split <;> rfl

theorem outcome_bind (x : EStateM ε σ Unit) (f : Unit → EStateM ε σ β) :
    outcome (x >>= f) s = (outcome x s).bind (outcome (f ())) := by
  unfold outcome
  change (match EStateM.bind x f s with | .ok _ s => _ | .error e _ => _) = _
  unfold EStateM.bind
  cases x s <;> rfl

/-! ### With it -/

variable {done : α → σ → Prop} {failed : ε → σ → Prop}

theorem after_bind {x : EStateM ε σ β} {f : β → EStateM ε σ α} :
    After (x >>= f) s done failed ↔ After x s (fun b s => After (f b) s done failed) failed := by
  unfold After
  change (match EStateM.bind x f s with | .ok a s => done a s | .error e s => failed e s) ↔ _
  unfold EStateM.bind
  cases x s <;> rfl

@[simp] theorem after_pure {a : α} : After (pure a) s done failed ↔ done a s := Iff.rfl

@[simp] theorem after_throw {e : ε} : After (throw e) s done failed ↔ failed e s := Iff.rfl

@[simp] theorem after_get {done : σ → σ → Prop} : After get s done failed ↔ done s s := Iff.rfl

@[simp] theorem after_modify {f : σ → σ} {done : PUnit → σ → Prop} :
    After (modify f) s done failed ↔ done ⟨⟩ (f s) := Iff.rfl

theorem After.imp {x : EStateM ε σ α} {done' : α → σ → Prop} {failed' : ε → σ → Prop}
    (h : After x s done failed) (first : ∀ a s, done a s → done' a s) (second : ∀ e s, failed e s → failed' e s) :
    After x s done' failed' := by
  unfold After at h ⊢
  cases run : x s with
  | ok a s' =>
    rw [run] at h
    exact first a s' h
  | error e s' =>
    rw [run] at h
    exact second e s' h

theorem After.of_ok {x : EStateM ε σ α} {a : α} {s' : σ} (h : After x s done failed) (run : x s = .ok a s') :
    done a s' := by
  unfold After at h
  rwa [run] at h

theorem After.of_error {x : EStateM ε σ α} {e : ε} {s' : σ} (h : After x s done failed) (run : x s = .error e s') :
    failed e s' := by
  unfold After at h
  rwa [run] at h

theorem After.with_outcome {x : EStateM ε σ α} (h : After x s done failed) :
    After x s (fun a s' => done a s' ∧ outcome x s = .ok s') failed := by
  unfold After outcome at *
  cases run : x s with
  | ok a s' =>
    rw [run] at h
    exact ⟨h, rfl⟩
  | error e s' =>
    rw [run] at h
    exact h

end Stateful
