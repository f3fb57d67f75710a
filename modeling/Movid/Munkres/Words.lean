import Movid.Lib.Lists
import Movid.Munkres.Match

/-!
# What the words, the searches and the distances give back

Rows and columns are below `dimFinger`, the number of bits in a word and the number of words.
-/

namespace Movid.Munkres

open Tracker (dimFinger)

/-! ### Bits -/

theorem get1_eq (m : ColT) (x : Nat) : get1 m x = m.getLsbD x := by
  have low : (m >>> x) &&& 1#32 = (BitVec.ofBool (m.getLsbD x)).setWidth 32 := by
    rw [BitVec.and_one_eq_setWidth_ofBool_getLsbD, BitVec.getLsbD_ushiftRight, Nat.add_zero]
  unfold get1
  rw [low]
  cases m.getLsbD x <;> rfl

theorem get1_zero (x : Nat) : get1 0 x = false := by
  rw [get1_eq, BitVec.ofNat_eq_ofNat, BitVec.getLsbD_zero]

theorem get1_set1 {y : Nat} (bound : y < dimFinger) (m : ColT) (x : Nat) : get1 (set1 m x) y = (get1 m y || decide (y = x)) := by
  have inside : y < 32 := bound
  rw [get1_eq, get1_eq, set1, ← BitVec.twoPow_eq, BitVec.getLsbD_or, BitVec.getLsbD_twoPow]
  by_cases same : y = x
  · subst same
    simp [inside]
  · have other : x ≠ y := fun h => same h.symm
    simp [same, other]

theorem get1_clear1 {y : Nat} (bound : y < dimFinger) (m : ColT) (x : Nat) : get1 (clear1 m x) y = (get1 m y && decide (y ≠ x)) := by
  have inside : y < 32 := bound
  rw [get1_eq, get1_eq, clear1, ← BitVec.twoPow_eq, BitVec.getLsbD_and, BitVec.getLsbD_not, BitVec.getLsbD_twoPow]
  by_cases same : y = x
  · subst same
    simp [inside]
  · have other : x ≠ y := fun h => same h.symm
    simp [same, other, inside]

theorem get2_replicate (row col : Nat) : get2 (Vector.replicate dimFinger 0) row col = false := by
  have word : (Vector.replicate dimFinger (0 : BitVec 32))[col]?.getD 0 = 0 := by
    rw [Vector.getElem?_replicate]
    split <;> rfl
  rw [get2, word, get1_zero]

theorem get2_set2 (m : MatT) {row col r c : Nat} (rowBound : r < dimFinger) (colBound : col < dimFinger) :
    get2 (set2 m row col) r c = true ↔ get2 m r c = true ∨ (r = row ∧ c = col) := by
  unfold get2 set2
  rw [Vector.getElem?_setIfInBounds]
  by_cases same : col = c
  · subst same
    simp [colBound, get1_set1 rowBound]
  · have other : c ≠ col := fun h => same h.symm
    simp [same, other]

theorem get2_clear2 (m : MatT) {row col r c : Nat} (rowBound : r < dimFinger) (colBound : col < dimFinger) :
    get2 (clear2 m row col) r c = true ↔ get2 m r c = true ∧ ¬ (r = row ∧ c = col) := by
  unfold get2 clear2
  rw [Vector.getElem?_setIfInBounds]
  by_cases same : col = c
  · subst same
    simp [colBound, get1_clear1 rowBound]
  · have other : c ≠ col := fun h => same h.symm
    simp [same, other]

/-! ### Searches -/

variable {n : Nat} {p : Nat → Bool}

theorem search_le (n : Nat) (p : Nat → Bool) : search n p ≤ n := by
  have le : (List.range n).findIdx p ≤ (List.range n).length := List.findIdx_le_length
  rwa [List.length_range] at le

theorem search_spec (found : search n p < n) : p (search n p) = true := by
  have inside : (List.range n).findIdx p < (List.range n).length := by
    rw [List.length_range]
    exact found
  have hit := List.findIdx_getElem (w := inside)
  rwa [List.getElem_range] at hit

theorem search_lt {i : Nat} (bound : i < n) (hit : p i = true) : search n p < n := by
  have lt : (List.range n).findIdx p < (List.range n).length := List.findIdx_lt_length_of_exists ⟨i, List.mem_range.mpr bound, hit⟩
  rwa [List.length_range] at lt

/-- A search that runs to the end: nothing has the property. -/
theorem search_none (missed : ¬ search n p < n) {i : Nat} (bound : i < n) : p i = false :=
  Bool.eq_false_iff.mpr fun hit => missed (search_lt bound hit)

/-! ### Distances -/

variable {nrows ncols : Nat}

theorem index_lt {row col : Nat} (rowBound : row < nrows) (colBound : col < ncols) : row + nrows * col < nrows * ncols :=
  calc row + nrows * col
      < nrows + nrows * col := Nat.add_lt_add_right rowBound _
    _ = nrows * (col + 1) := by rw [Nat.mul_succ, Nat.add_comm]
    _ ≤ nrows * ncols := Nat.mul_le_mul_left _ colBound

theorem index_inj {row col r c : Nat} (rowBound : row < nrows) (rBound : r < nrows) : row + nrows * col = r + nrows * c ↔ row = r ∧ col = c := by
  constructor
  · intro same
    have rows : (row + nrows * col) % nrows = (r + nrows * c) % nrows := congrArg (· % nrows) same
    rw [Nat.add_mul_mod_self_left, Nat.add_mul_mod_self_left, Nat.mod_eq_of_lt rowBound, Nat.mod_eq_of_lt rBound] at rows
    subst rows
    exact ⟨rfl, Nat.eq_of_mul_eq_mul_left (Nat.zero_lt_of_lt rowBound) (Nat.add_left_cancel same)⟩
  · rintro ⟨rfl, rfl⟩
    rfl

theorem at_add (mdist : Mdist nrows ncols) {row col r c : Nat} (d : Int) (rowBound : row < nrows) (colBound : col < ncols)
    (rBound : r < nrows) : (mdist.add row col d).at r c = if row = r ∧ col = c then mdist.at r c + d else mdist.at r c := by
  unfold Mdist.add Mdist.at
  rw [Vector.getElem?_setIfInBounds]
  by_cases same : row = r ∧ col = c
  · obtain ⟨rfl, rfl⟩ := same
    simp [index_lt rowBound colBound]
  · have apart : row + nrows * col ≠ r + nrows * c := fun h => same ((index_inj rowBound rBound).mp h)
    simp [apart, same]

theorem at_addRow (mdist : Mdist nrows ncols) {row r c : Nat} (d : Int) (rowBound : row < nrows) (rBound : r < nrows) (cBound : c < ncols) :
    (addRow mdist row d).at r c = if row = r then mdist.at r c + d else mdist.at r c := by
  have line := Lists.foldl_read (fun mdist : Mdist nrows ncols => mdist.at r c) (fun x => if row = r then x + d else x) c
    (List.nodup_range (n := ncols)) (fun mdist col => mdist.add row col d) (fun mdist col member => by
      rw [at_add mdist d rowBound (List.mem_range.mp member) rBound]
      by_cases same : col = c <;> simp [same]) mdist
  rwa [if_pos (List.mem_range.mpr cBound)] at line

theorem at_addCol (mdist : Mdist nrows ncols) {col r c : Nat} (d : Int) (colBound : col < ncols) (rBound : r < nrows) :
    (addCol mdist col d).at r c = if col = c then mdist.at r c + d else mdist.at r c := by
  have line := Lists.foldl_read (fun mdist : Mdist nrows ncols => mdist.at r c) (fun x => if col = c then x + d else x) r
    (List.nodup_range (n := nrows)) (fun mdist row => mdist.add row col d) (fun mdist row member => by
      rw [at_add mdist d (List.mem_range.mp member) colBound rBound]
      by_cases same : row = r <;> simp [same]) mdist
  rwa [if_pos (List.mem_range.mpr rBound)] at line

/-! ### The smallest value -/

theorem fold_least (rest : List Int) (first : Int) :
    (∀ value ∈ first :: rest, rest.foldl (fun least value => if value < least then value else least) first ≤ value) ∧
      rest.foldl (fun least value => if value < least then value else least) first ∈ first :: rest := by
  induction rest generalizing first with
  | nil => simp
  | cons second rest ih =>
    rw [List.foldl_cons]
    obtain ⟨least, member⟩ := ih (if second < first then second else first)
    have head := least _ List.mem_cons_self
    constructor
    · intro value inside
      rcases List.mem_cons.mp inside with rfl | inside
      · refine head.trans ?_
        split <;> omega
      · rcases List.mem_cons.mp inside with rfl | inside
        · refine head.trans ?_
          split <;> omega
        · exact least value (List.mem_cons_of_mem _ inside)
    · rcases List.mem_cons.mp member with same | inside
      · rw [same]
        split <;> simp
      · exact List.mem_cons_of_mem _ (List.mem_cons_of_mem _ inside)

theorem minValue_le {values : List Int} {value : Int} (member : value ∈ values) : minValue values ≤ value := by
  cases values with
  | nil => cases member
  | cons first rest => exact (fold_least rest first).1 value member

theorem minValue_mem {values : List Int} (some' : values ≠ []) : minValue values ∈ values := by
  cases values with
  | nil => exact absurd rfl some'
  | cons first rest => exact (fold_least rest first).2

end Movid.Munkres
