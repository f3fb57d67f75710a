import Mathlib.Data.Finset.Card
import Mathlib.Logic.Function.Basic

/-!
# Redirected nodes

Each of the first `n` nodes points at another or at itself, and whoever follows the pointers comes to an end. A label tells which end.
-/

namespace Redirect

variable {α : Type} {n : Nat} {next : Nat → Nat} {label : Nat → α}

/-- The end that is reached from `i` in at most `fuel` steps. -/
def follow (next : Nat → Nat) : Nat → Nat → Option Nat
  | 0, _ => none
  | fuel + 1, i => if next i = i then some i else follow next fuel (next i)

structure Forest (n : Nat) (next : Nat → Nat) (label : Nat → α) : Prop where
  inside : ∀ i < n, next i < n
  keeps : ∀ i < n, label (next i) = label i
  single : ∀ i < n, ∀ j < n, next i = i → next j = j → label i = label j → i = j
  falls : ∃ rank : Nat → Nat, ∀ i < n, next i ≠ i → rank (next i) < rank i

theorem Forest.empty : Forest 0 next label where
  inside i below := absurd below (Nat.not_lt_zero i)
  keeps i below := absurd below (Nat.not_lt_zero i)
  single i below := absurd below (Nat.not_lt_zero i)
  falls := ⟨id, fun i below => absurd below (Nat.not_lt_zero i)⟩

/-- The number of nodes with a smaller rank is a rank as well. -/
theorem Forest.falls_below (forest : Forest n next label) :
    ∃ rank : Nat → Nat, (∀ i < n, rank i < n) ∧ ∀ i < n, next i ≠ i → rank (next i) < rank i := by
  obtain ⟨rank, falls⟩ := forest.falls
  refine ⟨fun i => ((Finset.range n).filter fun j => rank j < rank i).card, fun i inside => ?_, fun i inside moves => ?_⟩
  · have fewer : (Finset.range n).filter (fun j => rank j < rank i) ⊂ Finset.range n :=
      Finset.filter_ssubset.mpr ⟨i, Finset.mem_range.mpr inside, Nat.lt_irrefl _⟩
    have card := Finset.card_lt_card fewer
    rwa [Finset.card_range] at card
  · have lower := falls i inside moves
    refine Finset.card_lt_card (Finset.ssubset_iff_of_subset ?_ |>.mpr ⟨next i, ?_, ?_⟩)
    · intro j below
      obtain ⟨range, below⟩ := Finset.mem_filter.mp below
      exact Finset.mem_filter.mpr ⟨range, Nat.lt_trans below lower⟩
    · exact Finset.mem_filter.mpr ⟨Finset.mem_range.mpr (forest.inside i inside), lower⟩
    · intro self
      exact Nat.lt_irrefl _ (Finset.mem_filter.mp self).2

theorem Forest.follow_ranked (forest : Forest n next label) {rank : Nat → Nat} (falls : ∀ i < n, next i ≠ i → rank (next i) < rank i)
    {fuel i : Nat} (inside : i < n) (enough : rank i < fuel) :
    ∃ e < n, follow next fuel i = some e ∧ next e = e ∧ label e = label i := by
  induction fuel generalizing i with
  | zero => exact absurd enough (Nat.not_lt_zero _)
  | succ fuel ih =>
    by_cases ends : next i = i
    · exact ⟨i, inside, if_pos ends, ends, rfl⟩
    · have lower := falls i inside ends
      obtain ⟨e, within, reached, fixed, same⟩ := ih (forest.inside i inside) (by omega)
      exact ⟨e, within, (if_neg ends).trans reached, fixed, same.trans (forest.keeps i inside)⟩

/-- As many steps as there are nodes are enough. -/
theorem Forest.follow_ends (forest : Forest n next label) {i : Nat} (inside : i < n) :
    ∃ e < n, follow next n i = some e ∧ next e = e ∧ label e = label i := by
  obtain ⟨rank, below, falls⟩ := forest.falls_below
  exact forest.follow_ranked falls inside (below i inside)

/-- Ends can have rank zero, and only they. -/
theorem Forest.falls_zero (forest : Forest n next label) :
    ∃ rank : Nat → Nat, (∀ i, next i = i ↔ rank i = 0) ∧ ∀ i < n, next i ≠ i → rank (next i) < rank i := by
  obtain ⟨rank, falls⟩ := forest.falls
  refine ⟨fun i => if next i = i then 0 else rank i + 1, fun i => ?_, fun i inside moves => ?_⟩
  · by_cases ends : next i = i
    · simp [ends]
    · simp [ends]
  · have lower := falls i inside moves
    by_cases ends : next (next i) = next i
    · simp [ends, moves]
    · simp only [ends, moves, if_false]
      omega

/-- A node may point at the end that it leads to. -/
theorem Forest.compress (forest : Forest n next label) {i e : Nat} (inside : i < n) (within : e < n) (fixed : next e = e)
    (same : label e = label i) : Forest n (Function.update next i e) label := by
  have ends {j : Nat} (below : j < n) (stays : Function.update next i e j = j) : next j = j := by
    by_cases self : j = i
    · subst self
      rw [Function.update_self] at stays
      rwa [stays] at fixed
    · rwa [Function.update_of_ne self] at stays
  refine ⟨fun j below => ?_, fun j below => ?_, fun j below k below' stays stays' => forest.single j below k below' (ends below stays)
    (ends below' stays'), ?_⟩
  · by_cases self : j = i
    · rwa [self, Function.update_self]
    · rw [Function.update_of_ne self]
      exact forest.inside j below
  · by_cases self : j = i
    · rwa [self, Function.update_self]
    · rw [Function.update_of_ne self]
      exact forest.keeps j below
  · obtain ⟨rank, zero, falls⟩ := forest.falls_zero
    refine ⟨rank, fun j below moves => ?_⟩
    by_cases self : j = i
    · subst self
      rw [Function.update_self] at moves ⊢
      have lowest := (zero e).mp fixed
      have above : rank j ≠ 0 := fun low => moves (forest.single e within j inside fixed ((zero j).mpr low) same)
      omega
    · rw [Function.update_of_ne self] at moves ⊢
      exact falls j below moves

/-- A new node with a label of its own. -/
theorem Forest.add (forest : Forest n next label) {l : α} (new : ∀ i < n, label i ≠ l) :
    Forest (n + 1) (Function.update next n n) (Function.update label n l) := by
  have old {i : Nat} (below : i < n) : Function.update next n n i = next i ∧ Function.update label n l i = label i :=
    ⟨Function.update_of_ne (Nat.ne_of_lt below) _ _, Function.update_of_ne (Nat.ne_of_lt below) _ _⟩
  have cases_ {i : Nat} (below : i < n + 1) : i < n ∨ i = n := by omega
  refine ⟨fun i below => ?_, fun i below => ?_, fun i below j below' stays stays' same => ?_, ?_⟩
  · rcases cases_ below with below | rfl
    · rw [(old below).1]
      exact Nat.lt_succ_of_lt (forest.inside i below)
    · rw [Function.update_self]
      omega
  · rcases cases_ below with below | rfl
    · rw [(old below).1, (old below).2, (old (forest.inside i below)).2]
      exact forest.keeps i below
    · rw [Function.update_self]
  · rcases cases_ below with below | rfl
    · rcases cases_ below' with below' | rfl
      · rw [(old below).1] at stays
        rw [(old below').1] at stays'
        rw [(old below).2, (old below').2] at same
        exact forest.single i below j below' stays stays' same
      · rw [(old below).2, Function.update_self] at same
        exact absurd same (new i below)
    · rcases cases_ below' with below' | rfl
      · rw [(old below').2, Function.update_self] at same
        exact absurd same.symm (new j below')
      · rfl
  · obtain ⟨rank, falls⟩ := forest.falls
    refine ⟨rank, fun i below moves => ?_⟩
    rcases cases_ below with below | rfl
    · rw [(old below).1] at moves ⊢
      exact falls i below moves
    · rw [Function.update_self] at moves
      exact absurd rfl moves

/-- One end is pointed at another, whose label goes to all nodes that led to the first. -/
theorem Forest.unite [DecidableEq α] (forest : Forest n next label) {a b : Nat} (inside : a < n) (inside' : b < n) (fixed : next a = a)
    (fixed' : next b = b) (other : a ≠ b) :
    Forest n (Function.update next a b) (fun i => if label i = label a then label b else label i) := by
  have apart : label b ≠ label a := fun same => other (forest.single a inside b inside' fixed fixed' same.symm)
  have ends {i : Nat} (below : i < n) (stays : Function.update next a b i = i) : next i = i ∧ label i ≠ label a := by
    by_cases self : i = a
    · rw [self, Function.update_self] at stays
      exact absurd stays.symm other
    · rw [Function.update_of_ne self] at stays
      exact ⟨stays, fun same => self (forest.single i below a inside stays fixed same)⟩
  refine ⟨fun i below => ?_, fun i below => ?_, fun i below j below' stays stays' same => ?_, ?_⟩
  · by_cases self : i = a
    · rwa [self, Function.update_self]
    · rw [Function.update_of_ne self]
      exact forest.inside i below
  · by_cases self : i = a
    · simp only [self, Function.update_self, apart, if_true, if_false]
    · rw [Function.update_of_ne self, forest.keeps i below]
  · obtain ⟨end_, out⟩ := ends below stays
    obtain ⟨end_', out'⟩ := ends below' stays'
    simp only [out, out', if_false] at same
    exact forest.single i below j below' end_ end_' same
  · obtain ⟨rank, zero, falls⟩ := forest.falls_zero
    refine ⟨fun i => if label i = label a then rank i + 1 else rank i, fun i below moves => ?_⟩
    by_cases self : i = a
    · have lowest := (zero b).mp fixed'
      simp only [self, Function.update_self, apart, if_true, if_false]
      omega
    · rw [Function.update_of_ne self] at moves ⊢
      have lower := falls i below moves
      simp only [forest.keeps i below]
      split <;> omega

end Redirect
