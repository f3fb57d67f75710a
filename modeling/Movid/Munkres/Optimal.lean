import Mathlib.Data.List.Pairwise
import Movid.Munkres.Run

/-!
# The result of `mtdev_match`

It pairs as many rows with columns as can be, no column twice, and no other such pairing has a smaller sum of distances. On the way no entry
of the array grows beyond twice the largest distance.
-/

namespace Movid.Munkres

open Assignment (IsAssignment Settled cost)
open Tracker (dimFinger)

variable {nrows ncols : Nat}

/-- What `ix` says of a row: its column, or -1. -/
def entry (ix : List Int) (row : Nat) : Int := ix.getD row (-1)

/-- A full pairing, in the form in which `mtdev_match` writes it to `ix`. -/
structure IsMatching (nrows ncols : Nat) (ix : List Int) : Prop where
  length : ix.length = nrows
  entries : ∀ j ∈ ix, j = -1 ∨ (0 ≤ j ∧ j < ncols)
  injective : ix.Pairwise fun j k => 0 ≤ j → j ≠ k
  full : ix.countP (0 ≤ ·) = min nrows ncols

/-- The sum of the distances of the pairs. -/
def total (A : List Int) (nrows : Nat) (ix : List Int) : Int :=
  ∑ row ∈ Finset.range nrows, if 0 ≤ entry ix row then A.getD (row + nrows * (entry ix row).toNat) 0 else 0

/-! ### `ix` as pairs -/

def matched (nrows : Nat) (ix : List Int) : Finset (Nat × Nat) :=
  ((Finset.range nrows).filter fun row => 0 ≤ entry ix row).image fun row => (row, (entry ix row).toNat)

theorem mem_matched {ix : List Int} {r c : Nat} : (r, c) ∈ matched nrows ix ↔ r < nrows ∧ entry ix r = c := by
  unfold matched
  rw [Finset.mem_image]
  constructor
  · rintro ⟨row, member, same⟩
    obtain ⟨inside, valid⟩ := Finset.mem_filter.mp member
    obtain ⟨rfl, rfl⟩ := Prod.mk.inj same
    exact ⟨Finset.mem_range.mp inside, (Int.toNat_of_nonneg valid).symm⟩
  · rintro ⟨rBound, same⟩
    refine ⟨r, Finset.mem_filter.mpr ⟨Finset.mem_range.mpr rBound, by omega⟩, ?_⟩
    rw [same, Int.toNat_natCast]

theorem cost_matched (A : List Int) (ix : List Int) (f : Nat → Nat → Int) (cells : ∀ pair ∈ matched nrows ix, f pair.1 pair.2 =
    A.getD (pair.1 + nrows * pair.2) 0) : cost f (matched nrows ix) = total A nrows ix := by
  calc cost f (matched nrows ix)
      = ∑ pair ∈ matched nrows ix, A.getD (pair.1 + nrows * pair.2) 0 := Finset.sum_congr rfl cells
    _ = ∑ row ∈ (Finset.range nrows).filter (0 ≤ entry ix ·), A.getD (row + nrows * (entry ix row).toNat) 0 :=
        Finset.sum_image fun r _ r' _ same => (Prod.mk.inj same).1
    _ = total A nrows ix := Finset.sum_filter _ _

theorem eq_map_entry {ix : List Int} (length : ix.length = nrows) : ix = (List.range nrows).map (entry ix) := by
  apply List.ext_getElem
  · rw [List.length_map, List.length_range, length]
  · intro i inside _
    rw [List.getElem_map, List.getElem_range, entry, List.getD_eq_getElem?_getD, List.getElem?_eq_getElem inside, Option.getD_some]

theorem card_matched {ix : List Int} (length : ix.length = nrows) : (matched nrows ix).card = ix.countP (0 ≤ ·) := by
  have injective : Function.Injective fun row => (row, (entry ix row).toNat) := fun r r' same => (Prod.mk.inj same).1
  calc (matched nrows ix).card
      = ((Finset.range nrows).filter (0 ≤ entry ix ·)).card := Finset.card_image_of_injective _ injective
    _ = ((List.range nrows).filter (0 ≤ entry ix ·)).length := rfl
    _ = ((List.range nrows).map (entry ix)).countP (0 ≤ ·) := by rw [List.countP_map, List.countP_eq_length_filter]; rfl
    _ = ix.countP (0 ≤ ·) := by rw [← eq_map_entry length]

theorem entry_mem {ix : List Int} {row : Nat} (inside : row < ix.length) : entry ix row ∈ ix := by
  rw [entry, List.getD_eq_getElem?_getD, List.getElem?_eq_getElem inside]
  exact List.getElem_mem inside

theorem IsMatching.isAssignment {ix : List Int} (matching : IsMatching nrows ncols ix) :
    IsAssignment (Finset.range nrows) (Finset.range ncols) (matched nrows ix) where
  within pair member := by
    obtain ⟨rBound, same⟩ := mem_matched.mp member
    have inside := matching.entries _ (entry_mem (matching.length.symm ▸ rBound))
    rw [Finset.mem_product, Finset.mem_range, Finset.mem_range]
    exact ⟨rBound, by omega⟩
  rows p first q second same := by
    obtain ⟨r, c⟩ := p
    obtain ⟨r', c'⟩ := q
    obtain rfl : r = r' := same
    have here := (mem_matched.mp first).2
    have there := (mem_matched.mp second).2
    exact Prod.ext rfl (by omega)
  cols p first q second same := by
    obtain ⟨r, c⟩ := p
    obtain ⟨r', c'⟩ := q
    obtain rfl : c = c' := same
    obtain ⟨rBound, here⟩ := mem_matched.mp first
    obtain ⟨rBound', there⟩ := mem_matched.mp second
    have apart : ∀ i j, i < j → j < nrows → entry ix i = c → entry ix j = c → False := fun i j less bound one two => by
      have inside : j < ix.length := matching.length.symm ▸ bound
      have differ := List.pairwise_iff_getElem.mp matching.injective i j (less.trans inside) inside less
      rw [entry, List.getD_eq_getElem?_getD, List.getElem?_eq_getElem (less.trans inside), Option.getD_some] at one
      rw [entry, List.getD_eq_getElem?_getD, List.getElem?_eq_getElem inside, Option.getD_some] at two
      exact differ (by omega) (one.trans two.symm)
    rcases Nat.lt_trichotomy r r' with less | same | less
    · exact (apart r r' less rBound' here there).elim
    · exact Prod.ext same rfl
    · exact (apart r' r less rBound there here).elim

/-! ### `buildixvector` -/

variable {s : State nrows ncols}

theorem entry_map (f : Nat → Int) {r : Nat} (rBound : r < nrows) : entry ((List.range nrows).map f) r = f r := by
  rw [entry, List.getD_eq_getElem?_getD, List.getElem?_map, List.getElem?_range rBound, Option.map_some, Option.getD_some]

theorem entry_buildixvector (stars : Relator.BiUnique s.Star) {r c : Nat} (rBound : r < nrows) :
    entry (buildixvector s.mstar nrows ncols) r = c ↔ s.Star r c := by
  unfold buildixvector
  rw [entry_map _ rBound]
  dsimp only
  split
  · rename_i found
    have starred := star_of_search (s := s) rBound found
    constructor
    · intro same
      rw [← Int.ofNat_inj.mp same]
      exact starred
    · intro here
      rw [stars.2 here starred]
  · rename_i missed
    constructor
    · intro same
      omega
    · intro here
      exact absurd here (unstarred_of_search missed c)

theorem matched_buildixvector (stars : Relator.BiUnique s.Star) :
    matched nrows (buildixvector s.mstar nrows ncols) = pairs s.mstar nrows ncols := by
  ext ⟨r, c⟩
  rw [mem_matched, mem_pairs]
  constructor
  · rintro ⟨rBound, same⟩
    exact (entry_buildixvector stars rBound).mp same
  · intro starred
    exact ⟨starred.1, (entry_buildixvector stars starred.1).mpr starred⟩

theorem length_buildixvector : (buildixvector s.mstar nrows ncols).length = nrows := by
  rw [buildixvector, List.length_map, List.length_range]

theorem buildixvector_isMatching (stars : Relator.BiUnique s.Star) (full : s.count = dmin nrows ncols) :
    IsMatching nrows ncols (buildixvector s.mstar nrows ncols) where
  length := length_buildixvector
  entries j member := by
    obtain ⟨row, _, rfl⟩ := List.mem_map.mp member
    dsimp only
    split <;> omega
  injective := by
    rw [eq_map_entry length_buildixvector]
    refine List.pairwise_map.mpr (List.pairwise_lt_range.imp_of_mem fun {r r'} first second less valid same => ?_)
    obtain ⟨c, here⟩ := Int.eq_ofNat_of_zero_le valid
    have starred := (entry_buildixvector stars (List.mem_range.mp first)).mp here
    have starred' := (entry_buildixvector stars (List.mem_range.mp second)).mp (same.symm.trans here)
    exact less.ne (stars.1 starred starred')
  full := by
    rw [← card_matched length_buildixvector, matched_buildixvector stars, ← dmin_eq]
    exact full

/-! ### The least sum -/

theorem load_at (A : List Int) {r c : Nat} (rBound : r < nrows) (cBound : c < ncols) :
    (load A nrows ncols).at r c = A.getD (r + nrows * c) 0 := by
  have inside := index_lt rBound cBound
  unfold Mdist.at load
  rw [Vector.getElem?_eq_getElem inside, Option.getD_some, Vector.getElem_ofFn]

/-- The prices at the end, with what the preliminary steps took away. -/
theorem cost_least {A : Mdist nrows ncols} {a b : Nat → Int} (reduced : Reduced A (prepare A).mdist a b) (sound : Sound s)
    (priced : Priced (prepare A).mdist.at s) (full : s.count = dmin nrows ncols) {others : Finset (Nat × Nat)}
    (other : IsAssignment (Finset.range nrows) (Finset.range ncols) others) (otherFull : others.card = min nrows ncols) :
    cost A.at (pairs s.mstar nrows ncols) ≤ cost A.at others := by
  obtain ⟨u, v, taken, prices, _⟩ := priced
  have own := pairs_isAssignment sound.stars
  have ownFull : (pairs s.mstar nrows ncols).card = min nrows ncols := (dmin_eq nrows ncols) ▸ full
  have cells : ∀ r < nrows, ∀ c < ncols, A.at r c = s.mdist.at r c + (a r + u r) + (b c + v c) := fun r rBound c cBound => by
    have first := reduced.split r rBound c cBound
    have second := prices.split r rBound c cBound
    omega
  have tight : ∀ pair ∈ pairs s.mstar nrows ncols, A.at pair.1 pair.2 = (a pair.1 + u pair.1) + (b pair.2 + v pair.2) := fun pair member => by
    have starred := mem_pairs.mp member
    have cell := cells pair.1 starred.1 pair.2 starred.2.1
    rw [sound.zeros _ _ starred] at cell
    omega
  by_cases wide : nrows ≤ ncols
  · -- Every row is paired. A column without a star is worth what has been taken in the whole run, so the columns are priced from there.
    refine own.cost_le other (u := fun r => a r + u r + taken) (v := fun c => b c + v c - taken) (fun r rBound c cBound => ?_)
      (fun pair member => ?_) (Or.inl ⟨own.rows_eq ?_, other.rows_eq ?_⟩) (Or.inr fun c cBound => ?_)
    · have cell := cells r (Finset.mem_range.mp rBound) c (Finset.mem_range.mp cBound)
      have nonneg := sound.nonneg r (Finset.mem_range.mp rBound) c (Finset.mem_range.mp cBound)
      omega
    · have exact' := tight pair member
      omega
    · rw [ownFull, Finset.card_range, min_eq_left wide]
    · rw [otherFull, Finset.card_range, min_eq_left wide]
    · dsimp only
      rw [reduced.onlyRows wide c]
      have price := prices.cols c (Finset.mem_range.mp cBound)
      refine ⟨by omega, fun out => ?_⟩
      have free := prices.freeCols c (Finset.mem_range.mp cBound) fun r starred => out (mem_starred_cols.mpr ⟨r, starred⟩)
      omega
  · have narrow := Nat.not_le.mp wide
    refine own.cost_le other (u := fun r => a r + u r) (v := fun c => b c + v c) (fun r rBound c cBound => ?_) tight
      (Or.inr fun r rBound => ?_) (Or.inl ⟨own.cols_eq ?_, other.cols_eq ?_⟩)
    · have cell := cells r (Finset.mem_range.mp rBound) c (Finset.mem_range.mp cBound)
      have nonneg := sound.nonneg r (Finset.mem_range.mp rBound) c (Finset.mem_range.mp cBound)
      omega
    · dsimp only
      rw [reduced.onlyCols narrow r]
      have price := prices.rows r (Finset.mem_range.mp rBound)
      refine ⟨by omega, fun out => ?_⟩
      have free := prices.freeRows r (Finset.mem_range.mp rBound) fun c starred => out (mem_starred_rows.mpr ⟨c, starred⟩)
      omega
    · rw [ownFull, Finset.card_range, min_eq_right narrow.le]
    · rw [otherFull, Finset.card_range, min_eq_right narrow.le]

/-- The distances of the pairs, as the array has them. -/
def worth (A : List Int) (nrows ncols : Nat) (ix : List Int) : Int := cost (load A nrows ncols).at (matched nrows ix)

theorem worth_eq (A : List Int) {ix : List Int} (matching : IsMatching nrows ncols ix) : worth A nrows ncols ix = total A nrows ix :=
  cost_matched A ix _ fun pair member => by
    obtain ⟨rows, cols⟩ := Finset.mem_product.mp (matching.isAssignment.within member)
    exact load_at A (Finset.mem_range.mp rows) (Finset.mem_range.mp cols)

theorem ixoptimal_worth (rowsFit : nrows ≤ dimFinger) (colsFit : ncols ≤ dimFinger) (A : List Int) :
    ∃ ix, ixoptimal A nrows ncols = some ix ∧ IsMatching nrows ncols ix ∧
      ∀ other, IsMatching nrows ncols other → worth A nrows ncols ix ≤ worth A nrows ncols other := by
  obtain ⟨s, returns, sound, priced, full⟩ := ixoptimal_spec rowsFit colsFit A
  obtain ⟨_, _, a, b, reduced⟩ := prepare_spec rowsFit colsFit (load A nrows ncols)
  refine ⟨_, returns, buildixvector_isMatching sound.stars full, fun other others => ?_⟩
  unfold worth
  rw [matched_buildixvector sound.stars]
  refine cost_least reduced sound priced full others.isAssignment ?_
  rw [card_matched others.length, others.full]

theorem InRun.sound {A : Nat → Nat → Int} {n : Nat} {x : Call × State nrows ncols} (here : InRun A n x) : Sound x.2 := by
  cases here <;> assumption

theorem InRun.priced {A : Nat → Nat → Int} {n : Nat} {x : Call × State nrows ncols} (here : InRun A n x) : Priced A x.2 := by
  cases here <;> assumption

/-- All that `mtdev_match` writes in the array. -/
def Within (s : State nrows ncols) (bound : Int) : Prop :=
  ∀ r < nrows, ∀ c < ncols, 0 ≤ s.mdist.at r c ∧ s.mdist.at r c ≤ bound

/-- Whatever `step5` finds, its first loop does not write more than twice the largest distance either. -/
theorem addRows_le {A : Nat → Nat → Int} {M : Int} {rows : List Nat} (largest : ∀ r < nrows, ∀ c < ncols, A r c ≤ M) (sound : Sound s)
    (priced : Priced A s) (covered : Covered s rows) (more : s.count < dmin nrows ncols) {r c : Nat} (rBound : r < nrows) (cBound : c < ncols) :
    0 ≤ (addRows s (minValue (uncovered s))).at r c ∧ (addRows s (minValue (uncovered s))).at r c ≤ 2 * M := by
  obtain ⟨t, _, shifted⟩ := step5_spec (covered.bare sound more)
  obtain ⟨u, v, taken, prices, _⟩ := priced
  have next := prices.shift sound covered shifted
  have sound' := shifted.sound sound covered
  have le := next.total_le sound' (shifted.count ▸ more) largest
  have split := next.split r rBound c cBound
  have row := next.rows r rBound
  have col := prices.cols c cBound
  have bound := largest r rBound c cBound
  have cell := sound.nonneg r rBound c cBound
  have positive := shifted.nonneg sound
  have cells := shifted.cells r rBound c cBound
  have first := at_addRows s (minValue (uncovered s)) rBound cBound
  rw [first]
  constructor
  · split <;> omega
  · omega

theorem within_of_reached (rowsFit : nrows ≤ dimFinger) (colsFit : ncols ≤ dimFinger) {A : List Int} {M : Int} (nonneg : 0 ≤ M)
    (small : ∀ d ∈ A, 0 ≤ d ∧ d ≤ M) {call : Call} (reached : Loop.Reached turn (.step2b, prepare (load A nrows ncols)) (call, s)) :
    Within s (2 * M) ∧ (call = .step5 → Within { s with mdist := addRows s (minValue (uncovered s)) } (2 * M)) := by
  obtain ⟨n, _, start⟩ := inRun_start rowsFit colsFit (load A nrows ncols)
  obtain ⟨_, _, a, b, reduced⟩ := prepare_spec rowsFit colsFit (load A nrows ncols)
  have before : ∀ r < nrows, ∀ c < ncols, 0 ≤ (load A nrows ncols).at r c ∧ (load A nrows ncols).at r c ≤ M := fun r rBound c cBound => by
    rw [load_at A rBound cBound, List.getD_eq_getElem?_getD]
    cases read : A[r + nrows * c]? with
    | none => exact ⟨le_rfl, nonneg⟩
    | some d => exact small d (List.mem_of_getElem? read)
  have largest : ∀ r < nrows, ∀ c < ncols, (prepare (load A nrows ncols)).mdist.at r c ≤ M := fun r rBound c cBound => by
    have split := reduced.split r rBound c cBound
    have positive := reduced.positive (fun r rBound c cBound => (before r rBound c cBound).1) r rBound c cBound
    have bound := (before r rBound c cBound).2
    omega
  obtain ⟨n, here⟩ := Loop.reached_invariant (I := fun x => ∃ n, InRun (prepare (load A nrows ncols)).mdist.at n x)
    (fun x y ⟨n, here⟩ calls => by
      obtain ⟨m, _, next⟩ := inRun_turn rowsFit colsFit n x y here calls
      exact ⟨m, next⟩) ⟨n, start⟩ reached
  constructor
  · intro r rBound c cBound
    obtain ⟨u, v, taken, prices, reach⟩ := here.priced
    have cell := prices.cell_le largest rBound cBound
    have le := reach M nonneg largest
    dsimp only at cell
    exact ⟨here.sound.nonneg r rBound c cBound, by omega⟩
  · rintro rfl r rBound c cBound
    cases here with
    | step5 sound priced covered more => exact addRows_le largest sound priced covered more rBound cBound

/-- From distances below 2^30 no entry of the array leaves the range of an `int`, in any call and between the loops of `step5`. -/
theorem mtdev_match_int (rowsFit : nrows ≤ dimFinger) (colsFit : ncols ≤ dimFinger) {A : List Int} (small : ∀ d ∈ A, 0 ≤ d ∧ d < 2 ^ 30)
    {call : Call} {s : State nrows ncols} (reached : Loop.Reached turn (.step2b, prepare (load A nrows ncols)) (call, s)) {r c : Nat}
    (rBound : r < nrows) (cBound : c < ncols) :
    (0 ≤ s.mdist.at r c ∧ s.mdist.at r c < 2 ^ 31) ∧
      (call = .step5 → 0 ≤ (addRows s (minValue (uncovered s))).at r c ∧ (addRows s (minValue (uncovered s))).at r c < 2 ^ 31) := by
  obtain ⟨within, between⟩ := within_of_reached rowsFit colsFit (M := 2 ^ 30 - 1) (by decide)
    (fun d member => ⟨(small d member).1, Int.le_sub_one_of_lt (small d member).2⟩) reached
  constructor
  · have cell := within r rBound c cBound
    omega
  · intro calls
    have cell := between calls r rBound c cBound
    dsimp only at cell
    omega

theorem mtdev_match_int_square :
    Loop.Reached turn (.step2b, prepare (load [5, 7, 7, 9] 2 2)) (.step3, prepare (load [5, 7, 7, 9] 2 2)) ∧
      (prepare (load [5, 7, 7, 9] 2 2)).mdist.at 1 1 < 2 ^ 31 := by
  have missing : ncc (prepare (load [5, 7, 7, 9] 2 2)) ≠ dmin 2 2 := by decide +kernel
  have reached : Loop.Reached turn (.step2b, prepare (load [5, 7, 7, 9] 2 2)) (.step3, prepare (load [5, 7, 7, 9] 2 2)) :=
    .again .start (if_neg missing)
  exact ⟨reached, (mtdev_match_int (by decide) (by decide) (by decide) reached (by decide) (by decide)).1.2⟩

end Movid.Munkres
