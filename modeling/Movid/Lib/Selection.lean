import Mathlib.Data.Finset.Card
import Mathlib.Data.List.Dedup
import Mathlib.Order.Defs.LinearOrder

/-!
# The members with the largest values

As many of them as are asked for, where zero asks for all.
-/

namespace Selection

variable {α K : Type*} [LinearOrder K] {value value' : α → K} {s r : Finset α} {m : ℕ}

structure Strongest (value : α → K) (s : Finset α) (m : ℕ) (r : Finset α) : Prop where
  subset : r ⊆ s
  all : m = 0 ∨ s.card ≤ m → s ⊆ r
  card : m ≠ 0 → m < s.card → r.card = m
  best : ∀ p ∈ r, ∀ q ∈ s, q ∉ r → value q ≤ value p

theorem strongest_self (enough : m = 0 ∨ s.card ≤ m) : Strongest value s m s where
  subset := Finset.Subset.refl s
  all _ := Finset.Subset.refl s
  card some few := absurd (enough.resolve_left some) (Nat.not_le.mpr few)
  best _ _ _ member out := absurd member out

theorem Strongest.eq (strongest : Strongest value s m r) (enough : m = 0 ∨ s.card ≤ m) : r = s :=
  Finset.Subset.antisymm strongest.subset (strongest.all enough)

theorem Strongest.card_le (strongest : Strongest value s m r) (some : m ≠ 0) : r.card ≤ m := by
  by_cases few : m < s.card
  · exact (strongest.card some few).le
  · exact (Finset.card_le_card strongest.subset).trans (Nat.not_lt.mp few)

/-- Only the order of the values counts. -/
theorem Strongest.congr (strongest : Strongest value s m r) (order : ∀ p ∈ s, ∀ q ∈ s, value q ≤ value p → value' q ≤ value' p) :
    Strongest value' s m r :=
  ⟨strongest.subset, strongest.all, strongest.card,
    fun p inside q member out => order p (strongest.subset inside) q member (strongest.best p inside q member out)⟩

/-- The head of a sorted list. -/
theorem strongest_take [DecidableEq α] {sorted l : List α} (perm : sorted.Perm l) (distinct : l.Nodup)
    (order : sorted.Pairwise fun a b => value b ≤ value a) (some : m ≠ 0) (few : m < l.length) :
    Strongest value l.toFinset m (sorted.take m).toFinset where
  subset p inside := by
    rw [List.mem_toFinset] at inside ⊢
    exact perm.subset (List.mem_of_mem_take inside)
  all enough := by
    rw [List.toFinset_card_of_nodup distinct] at enough
    omega
  card _ _ := by
    rw [List.toFinset_card_of_nodup ((perm.nodup_iff.mpr distinct).sublist (List.take_sublist m sorted)), List.length_take, perm.length_eq]
    omega
  best p inside q member out := by
    rw [List.mem_toFinset] at inside member out
    have rest : q ∈ sorted.drop m := by
      have there := perm.symm.subset member
      rw [← List.take_append_drop m sorted] at there
      exact (List.mem_append.mp there).resolve_left out
    rw [← List.take_append_drop m sorted] at order
    exact (List.pairwise_append.mp order).2.2 p inside q rest

end Selection
