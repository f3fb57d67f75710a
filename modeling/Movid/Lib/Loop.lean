import Mathlib.Tactic.Common

/-!
# A loop that runs until it returns

The body takes the state at the head of the loop and either goes round again or returns. Functions that end by calling each other are
such a loop too: the state then says which of them is being called.
-/

namespace Loop

inductive Turn (σ ρ : Type*) where
  | again (s : σ)
  | done (r : ρ)

variable {σ ρ : Type*} (body : σ → Turn σ ρ)

/-- `none` when the loop has not returned within `fuel` turns. -/
def run : Nat → σ → Option ρ
  | 0, _ => none
  | fuel + 1, s =>
    match body s with
    | .again t => run fuel t
    | .done r => some r

/-- The states at the head of the loop, from `s` on. -/
inductive Reached (s : σ) : σ → Prop
  | start : Reached s s
  | again {t u : σ} : Reached s t → body t = .again u → Reached s u

variable {body}

/-- An invariant that also bounds the number of turns left gives both the return and what is returned. -/
theorem run_ranked {I : Nat → σ → Prop} {R : ρ → Prop}
    (again : ∀ n s t, I n s → body s = .again t → ∃ m < n, I m t) (done : ∀ n s r, I n s → body s = .done r → R r)
    {n : Nat} {s : σ} (holds : I n s) {fuel : Nat} (enough : n < fuel) : ∃ r, run body fuel s = some r ∧ R r := by
  induction fuel generalizing n s with
  | zero => exact absurd enough (Nat.not_lt_zero n)
  | succ fuel ih =>
    unfold run
    cases turn : body s with
    | again t =>
      obtain ⟨m, fewer, holds⟩ := again n s t holds turn
      exact ih holds (Nat.lt_of_lt_of_le fewer (Nat.lt_succ_iff.mp enough))
    | done r => exact ⟨r, rfl, done n s r holds turn⟩

theorem reached_invariant {I : σ → Prop} (again : ∀ s t, I s → body s = .again t → I t) {s t : σ} (holds : I s)
    (reached : Reached body s t) : I t := by
  induction reached with
  | start => exact holds
  | again _ turn ih => exact again _ _ ih turn

end Loop
