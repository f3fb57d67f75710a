import Mathlib.Tactic.Common

/-!
# Programs that may fail

`Ends` speaks of both ends of a program: of its result, and of what it fails with.
-/

namespace Failing

variable {ε ε' α β : Type} {x : Except ε α} {done done' : α → Prop} {failed : ε → Prop}

def Ends (x : Except ε α) (done : α → Prop) (failed : ε → Prop) : Prop :=
  match x with
  | .ok a => done a
  | .error e => failed e

theorem Ends.of_ok (ends : Ends x done failed) {a : α} (ok : x = .ok a) : done a := by
  subst ok
  exact ends

theorem Ends.of_error (ends : Ends x done failed) {e : ε} (error : x = .error e) : failed e := by
  subst error
  exact ends

theorem Ends.mono (ends : Ends x done failed) (imp : ∀ a, done a → done' a) : Ends x done' failed := by
  cases x with
  | ok a => exact imp a ends
  | error e => exact ends

theorem Ends.bind {f : α → Except ε β} {later : β → Prop} (ends : Ends x done failed) (next : ∀ a, done a → Ends (f a) later failed) :
    Ends (x.bind f) later failed := by
  cases x with
  | ok a => exact next a ends
  | error e => exact ends

theorem bind_ok {f : α → Except ε β} {b : β} (done : x.bind f = .ok b) : ∃ a, x = .ok a ∧ f a = .ok b := by
  cases x with
  | ok a => exact ⟨a, rfl, done⟩
  | error e => cases done

theorem Ends.mapError {f : ε → ε'} {failed' : ε' → Prop} (ends : Ends x done failed) (imp : ∀ e, failed e → failed' (f e)) :
    Ends (x.mapError f) done failed' := by
  cases x with
  | ok a => exact ends
  | error e => exact imp e ends

theorem bind_isOk (x : Except ε α) {f : α → Except ε β} (total : ∀ a, x = .ok a → ∃ b, f a = .ok b) :
    (∃ b, x.bind f = .ok b) ↔ ∃ a, x = .ok a := by
  cases x with
  | error e => exact ⟨fun ⟨b, done⟩ => (nomatch done), fun ⟨a, done⟩ => (nomatch done)⟩
  | ok a => exact ⟨fun _ => ⟨a, rfl⟩, fun _ => total a rfl⟩

theorem bind_isOk_and (x : Except ε α) (y : Except ε β) {γ : Type} {f : α → β → γ} :
    (∃ c, (x.bind fun a => y.bind fun b => .ok (f a b)) = .ok c) ↔ (∃ a, x = .ok a) ∧ ∃ b, y = .ok b := by
  cases x with
  | error e => exact ⟨fun ⟨b, done⟩ => (nomatch done), fun ⟨⟨a, done⟩, _⟩ => (nomatch done)⟩
  | ok a =>
    cases y with
    | error e => exact ⟨fun ⟨b, done⟩ => (nomatch done), fun ⟨_, b, done⟩ => (nomatch done)⟩
    | ok b => exact ⟨fun _ => ⟨⟨a, rfl⟩, b, rfl⟩, fun _ => ⟨f a b, rfl⟩⟩

/-- A counting loop that keeps an invariant does not fail. -/
theorem foldlM_range'_ok {σ : Type} {I : Nat → σ → Prop} {f : σ → Nat → Except ε σ} {a n : Nat}
    (step : ∀ i s, a ≤ i → i < a + n → I i s → ∃ s', f s i = .ok s' ∧ I (i + 1) s') {s : σ} (start : I a s) :
    ∃ s', (List.range' a n).foldlM f s = .ok s' ∧ I (a + n) s' := by
  induction n generalizing a s with
  | zero => exact ⟨s, rfl, start⟩
  | succ n ih =>
    obtain ⟨t, turn, holds⟩ := step a s (Nat.le_refl a) (by omega) start
    obtain ⟨s', rest, ends⟩ := ih (fun i s lower upper => step i s (by omega) (by omega)) holds
    refine ⟨s', ?_, by rwa [Nat.add_assoc, Nat.add_comm 1 n] at ends⟩
    rw [List.range'_succ, List.foldlM_cons, turn]
    exact rest

theorem foldlM_range_ok {σ : Type} {I : Nat → σ → Prop} {f : σ → Nat → Except ε σ} {n : Nat}
    (step : ∀ i s, i < n → I i s → ∃ s', f s i = .ok s' ∧ I (i + 1) s') {s : σ} (start : I 0 s) :
    ∃ s', (List.range n).foldlM f s = .ok s' ∧ I n s' := by
  obtain ⟨s', loop, ends⟩ := foldlM_range'_ok (a := 0) (n := n) (fun i s _ upper => step i s (by omega)) start
  rw [List.range_eq_range']
  exact ⟨s', loop, by rwa [Nat.zero_add] at ends⟩

/-- A counting loop that has not failed has kept its invariant, and each turn has found what it needs. -/
theorem foldlM_range'_only {σ : Type} {I : Nat → σ → Prop} {P : Nat → Prop} {f : σ → Nat → Except ε σ} {a n : Nat}
    (step : ∀ i s s', a ≤ i → i < a + n → I i s → f s i = .ok s' → P i ∧ I (i + 1) s') {s s' : σ} (start : I a s)
    (done : (List.range' a n).foldlM f s = .ok s') : (∀ i, a ≤ i → i < a + n → P i) ∧ I (a + n) s' := by
  induction n generalizing a s with
  | zero =>
    cases done
    exact ⟨fun i lower upper => absurd upper (by omega), start⟩
  | succ n ih =>
    rw [List.range'_succ, List.foldlM_cons] at done
    obtain ⟨t, turn, rest⟩ := bind_ok done
    obtain ⟨first, holds⟩ := step a s t (Nat.le_refl a) (by omega) start turn
    obtain ⟨later, ends⟩ := ih (fun i s s' lower upper => step i s s' (by omega) (by omega)) holds rest
    refine ⟨fun i lower upper => ?_, by rwa [Nat.add_assoc, Nat.add_comm 1 n] at ends⟩
    rcases Nat.eq_or_lt_of_le lower with rfl | after
    · exact first
    · exact later i after (by omega)

end Failing
