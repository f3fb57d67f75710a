import Mathlib.Algebra.Order.Group.Unbundled.Int
import Movid.Lib.Assignment
import Movid.Munkres.Augment

/-!
# Uncovering another zero

`step5` takes the smallest uncovered element from the uncovered columns and gives it to the covered rows. Stars and primes stay on zeros,
and what the columns have lost and the rows have won are the prices that a cheapest assignment is known by.
-/

namespace Movid.Munkres

open Assignment (IsAssignment)
open Tracker (dimFinger)

variable {nrows ncols : Nat} {s t : State nrows ncols} {rows : List Nat}

/-! ### The number of stars -/

/-- The stars as pairs of a row and a column. -/
def pairs (mstar : MatT) (nrows ncols : Nat) : Finset (Nat × Nat) :=
  (Finset.range nrows ×ˢ Finset.range ncols).filter fun pair => get2 mstar pair.1 pair.2 = true

theorem mem_pairs {pair : Nat × Nat} : pair ∈ pairs s.mstar nrows ncols ↔ s.Star pair.1 pair.2 := by
  unfold pairs
  rw [Finset.mem_filter, Finset.mem_product, Finset.mem_range, Finset.mem_range, and_assoc]
  exact Iff.rfl

theorem mem_starred_rows {r : Nat} : r ∈ (pairs s.mstar nrows ncols).image Prod.fst ↔ ∃ c, s.Star r c := by
  rw [Finset.mem_image]
  constructor
  · rintro ⟨pair, member, rfl⟩
    exact ⟨pair.2, mem_pairs.mp member⟩
  · rintro ⟨c, starred⟩
    exact ⟨(r, c), mem_pairs.mpr starred, rfl⟩

theorem mem_starred_cols {c : Nat} : c ∈ (pairs s.mstar nrows ncols).image Prod.snd ↔ ∃ r, s.Star r c := by
  rw [Finset.mem_image]
  constructor
  · rintro ⟨pair, member, rfl⟩
    exact ⟨pair.1, mem_pairs.mp member⟩
  · rintro ⟨r, starred⟩
    exact ⟨(r, c), mem_pairs.mpr starred, rfl⟩

theorem pairs_isAssignment (stars : Relator.BiUnique s.Star) :
    IsAssignment (Finset.range nrows) (Finset.range ncols) (pairs s.mstar nrows ncols) where
  within := Finset.filter_subset _ _
  rows p first q second same := by
    obtain ⟨r, c⟩ := p
    obtain ⟨r', c'⟩ := q
    obtain rfl : r = r' := same
    exact Prod.ext rfl (stars.2 (mem_pairs.mp first) (mem_pairs.mp second))
  cols p first q second same := by
    obtain ⟨r, c⟩ := p
    obtain ⟨r', c'⟩ := q
    obtain rfl : c = c' := same
    exact Prod.ext (stars.1 (mem_pairs.mp first) (mem_pairs.mp second)) rfl

def State.count (s : State nrows ncols) : Nat := (pairs s.mstar nrows ncols).card

theorem dmin_eq (nrows ncols : Nat) : dmin nrows ncols = min nrows ncols := by
  unfold dmin
  split <;> omega

theorem count_le (stars : Relator.BiUnique s.Star) : s.count ≤ dmin nrows ncols := by
  have byRows := (pairs_isAssignment stars).card_le_rows
  have byCols := (pairs_isAssignment stars).card_le_cols
  rw [Finset.card_range] at byRows byCols
  rw [dmin_eq]
  exact le_min byRows byCols

theorem free_row (stars : Relator.BiUnique s.Star) (more : s.count < dmin nrows ncols) : ∃ r < nrows, ∀ c, ¬ s.Star r c := by
  by_contra all
  have full : Finset.range nrows ⊆ (pairs s.mstar nrows ncols).image Prod.fst := fun r member => by
    by_contra out
    exact all ⟨r, Finset.mem_range.mp member, fun c starred => out (mem_starred_rows.mpr ⟨c, starred⟩)⟩
  have le := Finset.card_le_card full
  rw [Finset.card_range, (pairs_isAssignment stars).card_rows] at le
  exact absurd (more.trans_le (dmin_eq nrows ncols ▸ min_le_left _ _)) (Nat.not_lt.mpr le)

theorem free_col (stars : Relator.BiUnique s.Star) (more : s.count < dmin nrows ncols) : ∃ c < ncols, ∀ r, ¬ s.Star r c := by
  by_contra all
  have full : Finset.range ncols ⊆ (pairs s.mstar nrows ncols).image Prod.snd := fun c member => by
    by_contra out
    exact all ⟨c, Finset.mem_range.mp member, fun r starred => out (mem_starred_cols.mpr ⟨r, starred⟩)⟩
  have le := Finset.card_le_card full
  rw [Finset.card_range, (pairs_isAssignment stars).card_cols] at le
  exact absurd (more.trans_le (dmin_eq nrows ncols ▸ min_le_right _ _)) (Nat.not_lt.mpr le)

/-- With no row covered there is a covered column for each star. -/
theorem ncc_eq (stars : Relator.BiUnique s.Star) (covered : Covered s []) : ncc s = s.count := by
  have same : (Finset.range ncols).filter (fun c => get1 s.ccol c = true) = (pairs s.mstar nrows ncols).image Prod.snd := by
    ext c
    rw [Finset.mem_filter, Finset.mem_range, mem_starred_cols]
    constructor
    · rintro ⟨cBound, bit⟩
      obtain ⟨r, starred, _⟩ := (covered.colBits c cBound).mp bit
      exact ⟨r, starred⟩
    · rintro ⟨r, starred⟩
      exact ⟨starred.2.1, (covered.colBits c starred.2.1).mpr ⟨r, starred, List.not_mem_nil⟩⟩
  unfold ncc State.count
  rw [← (pairs_isAssignment stars).card_cols, ← same, List.countP_eq_length_filter]
  exact congrArg List.length (List.filter_congr fun c _ => Bool.decide_eq_true.symm)

theorem Augmented.count {row : Nat} (augmented : Augmented s t row) (stars : Relator.BiUnique s.Star) (unstarred : ∀ c, ¬ s.Star row c) :
    t.count = s.count + 1 := by
  have rows : (pairs t.mstar nrows ncols).image Prod.fst = insert row ((pairs s.mstar nrows ncols).image Prod.fst) := by
    ext r
    rw [Finset.mem_insert, mem_starred_rows, mem_starred_rows, augmented.starredRows r]
  have new : row ∉ (pairs s.mstar nrows ncols).image Prod.fst := fun member => by
    obtain ⟨c, starred⟩ := mem_starred_rows.mp member
    exact unstarred c starred
  unfold State.count
  rw [← (pairs_isAssignment augmented.stars).card_rows, rows, Finset.card_insert_of_notMem new, (pairs_isAssignment stars).card_rows]

/-! ### `step5` -/

/-- A cell that neither its row nor its column hides. -/
def Bare (s : State nrows ncols) (r c : Nat) : Prop := r < nrows ∧ c < ncols ∧ get1 s.crow r = false ∧ get1 s.ccol c = false

theorem mem_uncovered {value : Int} : value ∈ uncovered s ↔ ∃ r c, Bare s r c ∧ s.mdist.at r c = value := by
  unfold uncovered
  simp only [List.mem_flatMap, List.mem_filter, List.mem_range, List.mem_map, Bool.not_eq_true']
  constructor
  · rintro ⟨r, ⟨rBound, row⟩, c, ⟨cBound, col⟩, same⟩
    exact ⟨r, c, ⟨rBound, cBound, row, col⟩, same⟩
  · rintro ⟨r, c, ⟨rBound, cBound, row, col⟩, same⟩
    exact ⟨r, ⟨rBound, row⟩, c, ⟨cBound, col⟩, same⟩

/-- What `step5` does to the distances, with `h` the smallest uncovered one. -/
structure Shifted (s t : State nrows ncols) (h : Int) : Prop where
  rest : t = { s with mdist := t.mdist }
  cells : ∀ r < nrows, ∀ c < ncols,
    t.mdist.at r c = s.mdist.at r c + (if get1 s.crow r then h else 0) - (if get1 s.ccol c then 0 else h)
  least : ∀ r c, Bare s r c → h ≤ s.mdist.at r c
  attained : ∃ r c, Bare s r c ∧ s.mdist.at r c = h

theorem at_addRows (s : State nrows ncols) (h : Int) {r c : Nat} (rBound : r < nrows) (cBound : c < ncols) :
    (addRows s h).at r c = s.mdist.at r c + if get1 s.crow r then h else 0 := by
  have line := Lists.foldl_read (fun mdist : Mdist nrows ncols => mdist.at r c) (· + h) r
    (List.nodup_range.filter (get1 s.crow) (l := List.range nrows)) (fun mdist row => addRow mdist row h) (fun mdist row member =>
      at_addRow mdist h (List.mem_range.mp (List.mem_filter.mp member).1) rBound cBound) s.mdist
  unfold addRows
  rw [line]
  by_cases bit : get1 s.crow r = true
  · rw [if_pos (List.mem_filter.mpr ⟨List.mem_range.mpr rBound, bit⟩), if_pos bit]
  · rw [if_neg fun member => bit (List.mem_filter.mp member).2, if_neg bit, Int.add_zero]

theorem step5_spec (bare : ∃ r c, Bare s r c) : ∃ t, step5 s = some t ∧ Shifted s t (minValue (uncovered s)) := by
  have some' : uncovered s ≠ [] := by
    obtain ⟨r, c, bare⟩ := bare
    exact List.ne_nil_of_mem (mem_uncovered.mpr ⟨r, c, bare, rfl⟩)
  refine ⟨_, by rw [step5, if_neg some'], rfl, fun r rBound c cBound => ?_, fun r c bare => ?_,
    mem_uncovered.mp (minValue_mem some')⟩
  · have line := Lists.foldl_read (fun mdist : Mdist nrows ncols => mdist.at r c) (· + -minValue (uncovered s)) c
      (List.nodup_range.filter (!get1 s.ccol ·) (l := List.range ncols))
      (fun mdist col => addCol mdist col (-minValue (uncovered s))) (fun mdist col member =>
        at_addCol mdist _ (List.mem_range.mp (List.mem_filter.mp member).1) rBound) (addRows s (minValue (uncovered s)))
    dsimp only at line ⊢
    rw [line, at_addRows s _ rBound cBound]
    by_cases bit : get1 s.ccol c = true
    · rw [if_neg fun member => by simp [bit] at member, if_pos bit, Int.sub_zero]
    · rw [if_pos (List.mem_filter.mpr ⟨List.mem_range.mpr cBound, by simpa using bit⟩), if_neg bit, Int.sub_eq_add_neg]
  · exact minValue_le (mem_uncovered.mpr ⟨r, c, bare, rfl⟩)

section Shift

variable {h : Int}

theorem Shifted.star (shifted : Shifted s t h) : t.Star = s.Star := by
  rw [shifted.rest]
  rfl

theorem Shifted.prime (shifted : Shifted s t h) : t.Prime = s.Prime := by
  rw [shifted.rest]
  rfl

theorem Shifted.crow (shifted : Shifted s t h) : t.crow = s.crow := by rw [shifted.rest]

theorem Shifted.ccol (shifted : Shifted s t h) : t.ccol = s.ccol := by rw [shifted.rest]

theorem Shifted.nonneg (shifted : Shifted s t h) (sound : Sound s) : 0 ≤ h := by
  obtain ⟨r, c, ⟨rBound, cBound, _⟩, same⟩ := shifted.attained
  exact same ▸ sound.nonneg r rBound c cBound

/-- A star is hidden by its row or by its column, never by both. -/
theorem Shifted.star_cell (shifted : Shifted s t h) (stars : Relator.BiUnique s.Star) (covered : Covered s rows) {r c : Nat}
    (starred : s.Star r c) : t.mdist.at r c = s.mdist.at r c := by
  have bits : get1 s.crow r = true ↔ ¬ get1 s.ccol c = true := by
    rw [covered.rowBits r starred.1, covered.colBits c starred.2.1]
    constructor
    · rintro member ⟨r', starred', out⟩
      exact out (stars.1 starred' starred ▸ member)
    · intro none
      by_contra out
      exact none ⟨r, starred, out⟩
  rw [shifted.cells r starred.1 c starred.2.1]
  by_cases bit : get1 s.crow r = true
  · rw [if_pos bit, if_neg (bits.mp bit)]
    omega
  · rw [if_neg bit, if_pos (not_not.mp (mt bits.mpr bit))]
    omega

/-- A prime is hidden by its row only. -/
theorem Shifted.prime_cell (shifted : Shifted s t h) (covered : Covered s rows) {r c : Nat} (primed : s.Prime r c) :
    t.mdist.at r c = s.mdist.at r c := by
  have member := (covered.primes r c primed).1
  have col : ¬ get1 s.ccol c = true := fun bit => by
    obtain ⟨r', starred, out⟩ := (covered.colBits c primed.2.1).mp bit
    exact out (covered.chain.closed member primed starred)
  rw [shifted.cells r primed.1 c primed.2.1, if_pos ((covered.rowBits r primed.1).mpr member), if_neg col]
  omega

theorem Shifted.sound (shifted : Shifted s t h) (sound : Sound s) (covered : Covered s rows) : Sound t where
  stars := shifted.star ▸ sound.stars
  zeros r c starred := by
    rw [shifted.star] at starred
    exact (shifted.star_cell sound.stars covered starred).trans (sound.zeros r c starred)
  nonneg r rBound c cBound := by
    have before := sound.nonneg r rBound c cBound
    have positive := shifted.nonneg sound
    rw [shifted.cells r rBound c cBound]
    by_cases row : get1 s.crow r = true
    · rw [if_pos row]
      split <;> omega
    · rw [if_neg row]
      split
      · omega
      · rename_i col
        have least := shifted.least r c ⟨rBound, cBound, by simpa using row, by simpa using col⟩
        omega

theorem Shifted.covered (shifted : Shifted s t h) (covered : Covered s rows) : Covered t rows where
  inside := covered.inside
  rowBits := shifted.crow ▸ covered.rowBits
  colBits := by
    rw [shifted.ccol, shifted.star]
    exact covered.colBits
  chain := by
    rw [shifted.star, shifted.prime]
    exact covered.chain
  primes r c primed := by
    rw [shifted.prime] at primed
    obtain ⟨member, zero⟩ := covered.primes r c primed
    exact ⟨member, (shifted.prime_cell covered primed).trans zero⟩

/-- The smallest uncovered element has become zero. -/
theorem Shifted.openZero (shifted : Shifted s t h) : ∃ r c, OpenZero t r c := by
  obtain ⟨r, c, ⟨rBound, cBound, row, col⟩, same⟩ := shifted.attained
  refine ⟨r, c, rBound, cBound, ?_, shifted.crow ▸ row, shifted.ccol ▸ col⟩
  rw [shifted.cells r rBound c cBound, row, col, same]
  simp

theorem Shifted.count (shifted : Shifted s t h) : t.count = s.count := by
  unfold State.count
  rw [shifted.rest]

end Shift

/-! ### Prices -/

/-- What rows and columns are worth, `total` being all that was taken from an uncovered column in the run. `A` are the distances after the
preliminary steps. -/
structure Prices (A : Nat → Nat → Int) (s : State nrows ncols) (u v : Nat → Int) (total : Int) : Prop where
  split : ∀ r < nrows, ∀ c < ncols, A r c = s.mdist.at r c + u r + v c
  rows : ∀ r < nrows, -total ≤ u r ∧ u r ≤ 0
  cols : ∀ c < ncols, 0 ≤ v c ∧ v c ≤ total
  freeRows : ∀ r < nrows, (∀ c, ¬ s.Star r c) → u r = 0
  freeCols : ∀ c < ncols, (∀ r, ¬ s.Star r c) → v c = total

variable {A : Nat → Nat → Int} {u v : Nat → Int} {total : Int}

/-- More rows and columns with a star. -/
theorem Prices.mono (prices : Prices A s u v total) (mdist : t.mdist = s.mdist) (rows : ∀ r, (∃ c, s.Star r c) → ∃ c, t.Star r c)
    (cols : ∀ c, (∃ r, s.Star r c) → ∃ r, t.Star r c) : Prices A t u v total where
  split := mdist ▸ prices.split
  rows := prices.rows
  cols := prices.cols
  freeRows r rBound free := prices.freeRows r rBound fun c starred => by
    obtain ⟨c', starred'⟩ := rows r ⟨c, starred⟩
    exact free c' starred'
  freeCols c cBound free := prices.freeCols c cBound fun r starred => by
    obtain ⟨r', starred'⟩ := cols c ⟨r, starred⟩
    exact free r' starred'

theorem Prices.shift {h : Int} (prices : Prices A s u v total) (sound : Sound s) (covered : Covered s rows) (shifted : Shifted s t h) :
    Prices A t (fun r => u r - if get1 s.crow r then h else 0) (fun c => v c + if get1 s.ccol c then 0 else h) (total + h) where
  split r rBound c cBound := by
    have before := prices.split r rBound c cBound
    have cell := shifted.cells r rBound c cBound
    omega
  rows r rBound := by
    have before := prices.rows r rBound
    have positive := shifted.nonneg sound
    split <;> omega
  cols c cBound := by
    have before := prices.cols c cBound
    have positive := shifted.nonneg sound
    split <;> omega
  freeRows r rBound free := by
    rw [shifted.star] at free
    have uncovered : ¬ get1 s.crow r = true := fun bit => by
      obtain ⟨c, starred⟩ := covered.chain.starred ((covered.rowBits r rBound).mp bit)
      exact free c starred
    rw [if_neg uncovered, prices.freeRows r rBound free, Int.sub_zero]
  freeCols c cBound free := by
    rw [shifted.star] at free
    have uncovered : ¬ get1 s.ccol c = true := fun bit => by
      obtain ⟨r, starred, _⟩ := (covered.colBits c cBound).mp bit
      exact free r starred
    rw [if_neg uncovered, prices.freeCols c cBound free]

/-- While a row and a column are free, the total is within the distances. -/
theorem Prices.total_le {M : Int} (prices : Prices A s u v total) (sound : Sound s) (more : s.count < dmin nrows ncols)
    (largest : ∀ r < nrows, ∀ c < ncols, A r c ≤ M) : total ≤ M := by
  obtain ⟨r, rBound, row⟩ := free_row sound.stars more
  obtain ⟨c, cBound, col⟩ := free_col sound.stars more
  have split := prices.split r rBound c cBound
  rw [prices.freeRows r rBound row, prices.freeCols c cBound col] at split
  have cell := sound.nonneg r rBound c cBound
  have bound := largest r rBound c cBound
  omega

theorem Prices.cell_le {M : Int} (prices : Prices A s u v total) (largest : ∀ r < nrows, ∀ c < ncols, A r c ≤ M) {r c : Nat} (rBound : r < nrows)
    (cBound : c < ncols) : s.mdist.at r c ≤ M + total := by
  have split := prices.split r rBound c cBound
  have row := prices.rows r rBound
  have col := prices.cols c cBound
  have bound := largest r rBound c cBound
  omega

end Movid.Munkres
