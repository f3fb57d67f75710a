import Mathlib.Data.List.Nodup
import Mathlib.Tactic.Common

/-!
# Sweeping out what is related to something before

A pass over pairs marks the second member of each pair that is related, unless it is marked already. It does not matter whether the
first member is marked itself.
-/

namespace Sweep

variable {α β : Type*} [DecidableEq β] (related : α → β → Prop) [∀ a b, Decidable (related a b)]

def mark (marked : List β) (pair : α × β) : List β :=
  if pair.2 ∈ marked then marked else if related pair.1 pair.2 then marked ++ [pair.2] else marked

def sweep (pairs : List (α × β)) : List β := pairs.foldl (mark related) []

/-- What is marked after the pairs: each member once and for a reason, and no pair with an unmarked second member is related. -/
structure Swept (pairs : List (α × β)) (marked : List β) : Prop where
  nodup : marked.Nodup
  reason : ∀ b ∈ marked, ∃ a, (a, b) ∈ pairs ∧ related a b
  apart : ∀ a b, (a, b) ∈ pairs → b ∉ marked → ¬ related a b

variable {related} {pairs : List (α × β)} {marked : List β}

omit [DecidableEq β] [∀ a b, Decidable (related a b)] in
/-- A pair that changes nothing. -/
theorem Swept.skip (swept : Swept related pairs marked) {pair : α × β} (quiet : pair.2 ∈ marked ∨ ¬ related pair.1 pair.2) :
    Swept related (pairs ++ [pair]) marked where
  nodup := swept.nodup
  reason b member := by
    obtain ⟨a, inside, close⟩ := swept.reason b member
    exact ⟨a, List.mem_append_left _ inside, close⟩
  apart a b inside unmarked := by
    rcases List.mem_append.mp inside with before | last
    · exact swept.apart a b before unmarked
    · obtain rfl := List.mem_singleton.mp last
      exact quiet.resolve_left unmarked

theorem Swept.mark (swept : Swept related pairs marked) (pair : α × β) : Swept related (pairs ++ [pair]) (mark related marked pair) := by
  unfold Sweep.mark
  split
  · rename_i already
    exact swept.skip (Or.inl already)
  · rename_i new
    split
    · rename_i close
      constructor
      · exact List.nodup_append.mpr ⟨swept.nodup, List.nodup_singleton _, fun x member y last same => by
          obtain rfl := List.mem_singleton.mp last
          exact new (same ▸ member)⟩
      · intro b member
        rcases List.mem_append.mp member with before | last
        · obtain ⟨a, inside, related⟩ := swept.reason b before
          exact ⟨a, List.mem_append_left _ inside, related⟩
        · obtain rfl := List.mem_singleton.mp last
          exact ⟨pair.1, List.mem_append_right _ List.mem_cons_self, close⟩
      · intro a b inside unmarked
        obtain ⟨out, other⟩ := not_or.mp (mt List.mem_append.mpr unmarked)
        rcases List.mem_append.mp inside with before | last
        · exact swept.apart a b before out
        · obtain rfl := List.mem_singleton.mp last
          exact absurd List.mem_cons_self other
    · rename_i far
      exact swept.skip (Or.inr far)

theorem Swept.foldl (swept : Swept related pairs marked) (more : List (α × β)) :
    Swept related (pairs ++ more) (more.foldl (Sweep.mark related) marked) := by
  induction more generalizing pairs marked with
  | nil =>
    rw [List.append_nil]
    exact swept
  | cons pair more ih =>
    rw [List.append_cons]
    exact ih (swept.mark pair)

theorem swept_sweep (pairs : List (α × β)) : Swept related pairs (sweep related pairs) :=
  Swept.foldl ⟨List.nodup_nil, fun _ none => absurd none List.not_mem_nil, fun _ _ none => absurd none List.not_mem_nil⟩ pairs

end Sweep
