import Mathlib.Order.Lattice
import Mathlib.Tactic.Common

/-!
# The search for a least member

A loop over a list that remembers the best member so far, and its key, which starts with a bound.
-/

namespace Search

variable {α K : Type*} [LinearOrder K] {p : α → Prop} {key : α → K} {bound min : K} {l : List α} {best : Option α} {a : α}

/-- The first of the members with the least key among those that may be chosen. -/
def Least (p : α → Prop) (key : α → K) (l : List α) (a : α) : Prop :=
  p a ∧ ∃ before after, l = before ++ a :: after ∧ (∀ b ∈ before, p b → key a < key b) ∧ ∀ b ∈ after, p b → key a ≤ key b

/-- What the loop knows after the members of `l`. -/
structure Running (p : α → Prop) (key : α → K) (bound : K) (l : List α) (best : Option α) (min : K) : Prop where
  low : ∀ b ∈ l, p b → min ≤ key b
  start : best = none → min = bound
  picked : ∀ a, best = some a → min = key a ∧ key a < bound ∧ p a ∧
    ∃ before after, l = before ++ a :: after ∧ ∀ b ∈ before, p b → key a < key b

theorem Running.nil : Running p key bound [] none bound := ⟨nofun, fun _ => rfl, nofun⟩

theorem Running.skip (running : Running p key bound l best min) (far : p a → min ≤ key a) : Running p key bound (l ++ [a]) best min where
  low b member pb := by
    rcases List.mem_append.mp member with earlier | last
    · exact running.low b earlier pb
    · obtain rfl := List.mem_singleton.mp last
      exact far pb
  start := running.start
  picked c same := by
    obtain ⟨eq, below, pc, before, after, rfl, first⟩ := running.picked c same
    exact ⟨eq, below, pc, before, after ++ [a], by simp, first⟩

theorem Running.min_le (running : Running p key bound l best min) : min ≤ bound := by
  cases best with
  | none => exact (running.start rfl).le
  | some a =>
    obtain ⟨eq, below, _⟩ := running.picked a rfl
    rw [eq]
    exact below.le

theorem Running.pick (running : Running p key bound l best min) (pa : p a) (near : key a < min) :
    Running p key bound (l ++ [a]) (some a) (key a) where
  low b member pb := by
    rcases List.mem_append.mp member with earlier | last
    · exact near.le.trans (running.low b earlier pb)
    · obtain rfl := List.mem_singleton.mp last
      exact le_rfl
  start := nofun
  picked c same := by
    obtain rfl := Option.some.inj same
    exact ⟨rfl, near.trans_le running.min_le, pa, l, [], rfl, fun b member pb => near.trans_le (running.low b member pb)⟩

theorem Running.least (running : Running p key bound l (some a) min) : Least p key l a ∧ key a < bound := by
  obtain ⟨eq, below, pa, before, after, rfl, first⟩ := running.picked a rfl
  refine ⟨⟨pa, before, after, rfl, first, fun b member pb => ?_⟩, below⟩
  rw [← eq]
  exact running.low b (List.mem_append_right _ (List.mem_cons_of_mem _ member)) pb

theorem Least.congr {q : α → Prop} (agree : ∀ b ∈ l, p b ↔ q b) (least : Least p key l a) : Least q key l a := by
  obtain ⟨pa, before, after, rfl, first, later⟩ := least
  refine ⟨(agree a (by simp)).mp pa, before, after, rfl, fun b member qb => ?_, fun b member qb => ?_⟩
  · exact first b member ((agree b (by simp [member])).mpr qb)
  · exact later b member ((agree b (by simp [member])).mpr qb)

theorem Least.mem (least : Least p key l a) : a ∈ l := by
  obtain ⟨_, before, after, rfl, _⟩ := least
  exact List.mem_append_right _ List.mem_cons_self

end Search
