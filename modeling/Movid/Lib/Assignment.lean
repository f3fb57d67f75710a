import Mathlib.Algebra.BigOperators.Ring.Finset
import Mathlib.Algebra.Order.BigOperators.Group.Finset
import Mathlib.Data.Finset.Card

/-!
# Assignments and their prices

An assignment pairs rows with columns, no row and no column twice. Prices of rows and columns that nowhere add up to more than the cost of
the pair show that an assignment is a cheapest one: its own pairs cost what their row and column are worth, and what it leaves out is worth
nothing.
-/

namespace Assignment

variable {ι κ M : Type*} {R : Finset ι} {C : Finset κ} {pairs others : Finset (ι × κ)}

structure IsAssignment (R : Finset ι) (C : Finset κ) (pairs : Finset (ι × κ)) : Prop where
  within : pairs ⊆ R ×ˢ C
  rows : Set.InjOn Prod.fst (pairs : Set (ι × κ))
  cols : Set.InjOn Prod.snd (pairs : Set (ι × κ))

section Rows

variable [DecidableEq ι]

theorem IsAssignment.card_rows (assignment : IsAssignment R C pairs) : (pairs.image Prod.fst).card = pairs.card :=
  Finset.card_image_of_injOn assignment.rows

theorem IsAssignment.rows_subset (assignment : IsAssignment R C pairs) : pairs.image Prod.fst ⊆ R :=
  Finset.image_subset_iff.mpr fun _ member => (Finset.mem_product.mp (assignment.within member)).1

theorem IsAssignment.card_le_rows (assignment : IsAssignment R C pairs) : pairs.card ≤ R.card :=
  assignment.card_rows ▸ Finset.card_le_card assignment.rows_subset

/-- An assignment of as many pairs as there are rows leaves no row out. -/
theorem IsAssignment.rows_eq (assignment : IsAssignment R C pairs) (full : pairs.card = R.card) : pairs.image Prod.fst = R :=
  Finset.eq_of_subset_of_card_le assignment.rows_subset (by rw [assignment.card_rows, full])

end Rows

section Cols

variable [DecidableEq κ]

theorem IsAssignment.card_cols (assignment : IsAssignment R C pairs) : (pairs.image Prod.snd).card = pairs.card :=
  Finset.card_image_of_injOn assignment.cols

theorem IsAssignment.cols_subset (assignment : IsAssignment R C pairs) : pairs.image Prod.snd ⊆ C :=
  Finset.image_subset_iff.mpr fun _ member => (Finset.mem_product.mp (assignment.within member)).2

theorem IsAssignment.card_le_cols (assignment : IsAssignment R C pairs) : pairs.card ≤ C.card :=
  assignment.card_cols ▸ Finset.card_le_card assignment.cols_subset

theorem IsAssignment.cols_eq (assignment : IsAssignment R C pairs) (full : pairs.card = C.card) : pairs.image Prod.snd = C :=
  Finset.eq_of_subset_of_card_le assignment.cols_subset (by rw [assignment.card_cols, full])

end Cols

section Prices

variable {γ : Type*} [AddCommMonoid M] [PartialOrder M] [IsOrderedAddMonoid M] {all taken other : Finset γ} {price : γ → M}

/-- Nothing is left out, or nothing has a positive price and what is left out has none. -/
def Settled (all taken other : Finset γ) (price : γ → M) : Prop :=
  (taken = all ∧ other = all) ∨ ∀ x ∈ all, price x ≤ 0 ∧ (x ∉ taken → price x = 0)

theorem Settled.sum_le (settled : Settled all taken other price) (takes : taken ⊆ all) (others : other ⊆ all) :
    ∑ x ∈ taken, price x ≤ ∑ x ∈ other, price x := by
  rcases settled with ⟨rfl, rfl⟩ | prices
  · exact le_rfl
  · calc ∑ x ∈ taken, price x
        = ∑ x ∈ all, price x := Finset.sum_subset takes fun x member out => (prices x member).2 out
      _ ≤ ∑ x ∈ other, price x := Finset.sum_le_sum_of_subset_of_nonpos' others fun x member _ => (prices x member).1

end Prices

section Cost

variable [AddCommMonoid M] {A : ι → κ → M} {u : ι → M} {v : κ → M}

def cost (A : ι → κ → M) (pairs : Finset (ι × κ)) : M := ∑ pair ∈ pairs, A pair.1 pair.2

theorem IsAssignment.sum_prices [DecidableEq ι] [DecidableEq κ] (assignment : IsAssignment R C pairs) :
    ∑ pair ∈ pairs, (u pair.1 + v pair.2) = ∑ row ∈ pairs.image Prod.fst, u row + ∑ col ∈ pairs.image Prod.snd, v col := by
  rw [Finset.sum_add_distrib, Finset.sum_image assignment.rows, Finset.sum_image assignment.cols]

/-- The prices show that the assignment is a cheapest one. -/
theorem IsAssignment.cost_le [PartialOrder M] [IsOrderedAddMonoid M] [DecidableEq ι] [DecidableEq κ] (assignment : IsAssignment R C pairs)
    (other : IsAssignment R C others) (below : ∀ row ∈ R, ∀ col ∈ C, u row + v col ≤ A row col)
    (tight : ∀ pair ∈ pairs, A pair.1 pair.2 = u pair.1 + v pair.2)
    (rows : Settled R (pairs.image Prod.fst) (others.image Prod.fst) u)
    (cols : Settled C (pairs.image Prod.snd) (others.image Prod.snd) v) : cost A pairs ≤ cost A others :=
  calc cost A pairs
      = ∑ pair ∈ pairs, (u pair.1 + v pair.2) := Finset.sum_congr rfl tight
    _ = ∑ row ∈ pairs.image Prod.fst, u row + ∑ col ∈ pairs.image Prod.snd, v col := assignment.sum_prices
    _ ≤ ∑ row ∈ others.image Prod.fst, u row + ∑ col ∈ others.image Prod.snd, v col :=
        add_le_add (rows.sum_le assignment.rows_subset other.rows_subset) (cols.sum_le assignment.cols_subset other.cols_subset)
    _ = ∑ pair ∈ others, (u pair.1 + v pair.2) := other.sum_prices.symm
    _ ≤ cost A others := Finset.sum_le_sum fun pair member =>
        have inside := Finset.mem_product.mp (other.within member)
        below pair.1 inside.1 pair.2 inside.2

end Cost

end Assignment
