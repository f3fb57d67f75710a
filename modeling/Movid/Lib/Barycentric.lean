import Mathlib.Algebra.BigOperators.Fin
import Mathlib.Algebra.Module.BigOperators
import Mathlib.Analysis.Convex.Hull
import Mathlib.LinearAlgebra.AffineSpace.AffineMap
import Mathlib.Tactic.FieldSimp
import Mathlib.Tactic.LinearCombination

/-!
# Barycentric coordinates in the plane

The coordinates of a point are quotients of areas. They are the only weights of the corners with sum one that give the point,
so whatever is known of some such weights is known of them.
-/

namespace Barycentric

variable {K : Type*} [Field K]

/-- Twice the area of a triangle, with a sign. -/
def area (a b c : K × K) : K := (a.1 - b.1) * (a.2 - c.2) - (a.2 - b.2) * (a.1 - c.1)

def coordinates (v : Fin 3 → K × K) (p : K × K) : Fin 3 → K :=
  let alpha := area p (v 1) (v 2) / area (v 0) (v 1) (v 2)
  let beta := area (v 0) p (v 2) / area (v 0) (v 1) (v 2)
  ![alpha, beta, 1 - alpha - beta]

/-- The weights put the corners together to the point. -/
structure Weighs (v : Fin 3 → K × K) (w : Fin 3 → K) (p : K × K) : Prop where
  sum : ∑ i, w i = 1
  point : ∑ i, w i • v i = p

/-- The point with these coordinates in another triangle. -/
def transform (v t : Fin 3 → K × K) (p : K × K) : K × K := ∑ i, coordinates v p i • t i

variable {v t : Fin 3 → K × K} {w : Fin 3 → K} {p : K × K}

theorem coordinates_weigh (flat : area (v 0) (v 1) (v 2) ≠ 0) (p : K × K) : Weighs v (coordinates v p) p where
  sum := by
    rw [Fin.sum_univ_three]
    simp only [coordinates, Matrix.cons_val_zero, Matrix.cons_val_one, Matrix.cons_val_two, Matrix.tail_cons, Matrix.head_cons]
    ring
  point := by
    rw [Fin.sum_univ_three]
    simp only [coordinates, Matrix.cons_val]
    refine Prod.ext ?_ ?_
    · simp only [Prod.fst_add, Prod.smul_fst, smul_eq_mul]
      field_simp
      unfold area
      ring
    · simp only [Prod.snd_add, Prod.smul_snd, smul_eq_mul]
      field_simp
      unfold area
      ring

theorem Weighs.unique (weighs : Weighs v w p) (flat : area (v 0) (v 1) (v 2) ≠ 0) : coordinates v p = w := by
  have sum := weighs.sum
  obtain rfl := weighs.point
  rw [Fin.sum_univ_three] at sum
  have last : w 2 = 1 - w 0 - w 1 := by linear_combination sum
  have alpha : area (∑ i, w i • v i) (v 1) (v 2) = w 0 * area (v 0) (v 1) (v 2) := by
    rw [Fin.sum_univ_three, last]
    simp only [area, Prod.fst_add, Prod.snd_add, Prod.smul_fst, Prod.smul_snd, smul_eq_mul]
    ring
  have beta : area (v 0) (∑ i, w i • v i) (v 2) = w 1 * area (v 0) (v 1) (v 2) := by
    rw [Fin.sum_univ_three, last]
    simp only [area, Prod.fst_add, Prod.snd_add, Prod.smul_fst, Prod.smul_snd, smul_eq_mul]
    ring
  funext i
  rw [coordinates, alpha, beta, mul_div_cancel_right₀ _ flat, mul_div_cancel_right₀ _ flat]
  fin_cases i
  · rfl
  · rfl
  · exact last.symm

theorem transform_of_weighs (weighs : Weighs v w p) (flat : area (v 0) (v 1) (v 2) ≠ 0) (t : Fin 3 → K × K) :
    transform v t p = ∑ i, w i • t i := by
  rw [transform, weighs.unique flat]

/-- Weights with sum one go along with an affine map. -/
theorem Weighs.map (weighs : Weighs v w p) (T : K × K →ᵃ[K] K × K) : Weighs (fun i => T (v i)) w (T p) where
  sum := weighs.sum
  point := by
    have split (q : K × K) : T q = T.linear q + T 0 := congrFun T.decomp q
    have constant : ∑ i, w i • T 0 = T 0 := by rw [← Finset.sum_smul, weighs.sum, one_smul]
    calc ∑ i, w i • T (v i) = ∑ i, (w i • T.linear (v i) + w i • T 0) := by simp only [split (v _), smul_add]
      _ = T.linear (∑ i, w i • v i) + T 0 := by rw [Finset.sum_add_distrib, constant, map_sum]; simp only [map_smul]
      _ = T p := by rw [weighs.point, ← split]

theorem transform_affine (flat : area (v 0) (v 1) (v 2) ≠ 0) (T : K × K →ᵃ[K] K × K) (p : K × K) :
    transform v (fun i => T (v i)) p = T p := ((coordinates_weigh flat p).map T).point

theorem weighs_corner (v : Fin 3 → K × K) (i : Fin 3) : Weighs v (Pi.single i 1) (v i) where
  sum := by rw [Finset.sum_pi_single']; simp
  point := by simp [Pi.single_apply]

theorem transform_corner (flat : area (v 0) (v 1) (v 2) ≠ 0) (i : Fin 3) : transform v t (v i) = t i := by
  rw [transform_of_weighs (weighs_corner v i) flat, (weighs_corner t i).point]

/-- Weights of two points give weights of every point of their line. -/
theorem Weighs.combine {u : Fin 3 → K} {q : K × K} {m n : K} (first : Weighs v w p) (second : Weighs v u q) (total : m + n = 1) :
    Weighs v (m • w + n • u) (m • p + n • q) where
  sum := by
    simp only [Pi.add_apply, Pi.smul_apply, smul_eq_mul]
    rw [Finset.sum_add_distrib, ← Finset.mul_sum, ← Finset.mul_sum, first.sum, second.sum, mul_one, mul_one, total]
  point := by
    simp only [Pi.add_apply, Pi.smul_apply, add_smul, smul_assoc]
    rw [Finset.sum_add_distrib, ← Finset.smul_sum, ← Finset.smul_sum, first.point, second.point]

theorem transform_edge (flat : area (v 0) (v 1) (v 2) ≠ 0) (i j : Fin 3) (s : K) :
    transform v t ((1 - s) • v i + s • v j) = (1 - s) • t i + s • t j := by
  have total : 1 - s + s = 1 := by ring
  rw [transform_of_weighs ((weighs_corner v i).combine (weighs_corner v j) total) flat]
  exact ((weighs_corner t i).combine (weighs_corner t j) total).point

section Order

variable [LinearOrder K] [IsStrictOrderedRing K]

theorem convex_coordinates (flat : area (v 0) (v 1) (v 2) ≠ 0) : Convex K { p | ∀ i, 0 ≤ coordinates v p i } := by
  intro p first q second m n nonneg nonneg' total i
  have weighs := (coordinates_weigh flat p).combine (coordinates_weigh flat q) total
  rw [weighs.unique flat]
  exact add_nonneg (mul_nonneg nonneg (first i)) (mul_nonneg nonneg' (second i))

theorem coordinates_nonneg (flat : area (v 0) (v 1) (v 2) ≠ 0) (inside : p ∈ convexHull K (Set.range v)) (i : Fin 3) :
    0 ≤ coordinates v p i := by
  have corners : Set.range v ⊆ { q | ∀ k, 0 ≤ coordinates v q k } := by
    rintro _ ⟨j, rfl⟩ k
    rw [(weighs_corner v j).unique flat, Pi.single_apply]
    split
    · exact zero_le_one
    · exact le_rfl
  exact convexHull_min corners (convex_coordinates flat) inside i

theorem coordinates_le_one (flat : area (v 0) (v 1) (v 2) ≠ 0) (inside : p ∈ convexHull K (Set.range v)) (i : Fin 3) :
    coordinates v p i ≤ 1 := by
  rw [← (coordinates_weigh flat p).sum]
  exact Finset.single_le_sum (fun j _ => coordinates_nonneg flat inside j) (Finset.mem_univ i)

end Order

end Barycentric
