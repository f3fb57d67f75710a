import Movid.Munkres.Cover

/-!
# One more star

`step4` exchanges stars for primes along the path that starts at a zero without a star in its row, and `step2a` covers the columns of the
new stars.
-/

namespace Movid.Munkres

open Alternating (Chain Flipping)
open Tracker (dimFinger)

variable {nrows ncols : Nat} {s t : State nrows ncols} {rows : List Nat} {row col : Nat}

theorem marks_clear2 (rowsFit : nrows ≤ dimFinger) (colsFit : ncols ≤ dimFinger) (m : MatT) {row col : Nat} (colBound : col < ncols)
    {r c : Nat} : Marks nrows ncols (clear2 m row col) r c ↔ Marks nrows ncols m r c ∧ ¬ (r = row ∧ c = col) := by
  constructor
  · rintro ⟨rBound, cBound, bit⟩
    obtain ⟨bit, other⟩ := (get2_clear2 m (Nat.lt_of_lt_of_le rBound rowsFit) (Nat.lt_of_lt_of_le colBound colsFit)).mp bit
    exact ⟨⟨rBound, cBound, bit⟩, other⟩
  · rintro ⟨⟨rBound, cBound, bit⟩, other⟩
    exact ⟨rBound, cBound, (get2_clear2 m (Nat.lt_of_lt_of_le rBound rowsFit) (Nat.lt_of_lt_of_le colBound colsFit)).mpr ⟨bit, other⟩⟩

/-- The search for the star of a column. -/
theorem star_of_search_col (colBound : col < ncols) (found : search nrows (get2 s.mstar · col) < nrows) :
    s.Star (search nrows (get2 s.mstar · col)) col :=
  ⟨found, colBound, search_spec found⟩

theorem unstarred_of_search_col (missed : ¬ search nrows (get2 s.mstar · col) < nrows) (r : Nat) : ¬ s.Star r col := by
  rintro ⟨rBound, _, bit⟩
  rw [search_none missed rBound] at bit
  exact Bool.false_ne_true bit

/-- The head of the loop of `step4`: the stars after part of the exchange, and how many rows the path can still meet. -/
def OnPath (s : State nrows ncols) (start n : Nat) (p : Path) : Prop :=
  ∃ todo : List Nat, todo.length = n ∧ Chain s.Star s.Prime todo ∧
    Flipping s.Star s.Prime start (Marks nrows ncols p.nmstar) p.cstar todo ∧
    p.cstar < ncols ∧ p.rstar = search nrows (get2 s.mstar · p.cstar)

/-- One turn exchanges the star in the current column for the prime in its row. -/
theorem onPath_turn (rowsFit : nrows ≤ dimFinger) (colsFit : ncols ≤ dimFinger) (stars : Relator.BiUnique s.Star) (start n : Nat)
    (p p' : Path) (here : OnPath s start n p) (turn : pathTurn s p = .again p') : ∃ m < n, OnPath s start m p' := by
  obtain ⟨nmstar, rstar, cstar⟩ := p
  obtain ⟨todo, rfl, chain, flipping, cBound, atStar⟩ := here
  dsimp only at flipping cBound atStar
  unfold pathTurn at turn
  split at turn
  · rename_i found
    cases turn
    subst atStar
    dsimp only at found ⊢
    have starred := star_of_search_col cBound found
    have member := flipping.next _ starred
    have untouched := flipping.untouched _ member
    obtain ⟨newer, older, rfl⟩ := List.append_of_mem member
    obtain ⟨_, _, ⟨q, primed, only, _⟩, later⟩ := chain.of_append
    have primeFound := search_lt primed.2.1 primed.2.2
    obtain rfl := only _ (show s.Prime _ _ from ⟨found, primeFound, search_spec primeFound⟩)
    refine ⟨older.length, by rw [List.length_append, List.length_cons]; omega, older, rfl, later, ?_, primeFound, rfl⟩
    refine (flipping.step stars chain starred primed).congr fun r c => ?_
    rw [marks_set2 rowsFit colsFit _ found primeFound, marks_clear2 rowsFit colsFit _ cBound]
    refine or_congr_left ?_
    constructor
    · rintro ⟨mark, other⟩
      refine ⟨?_, mark⟩
      rintro rfl
      exact other ⟨rfl, stars.2 ((untouched c).mp mark) starred⟩
    · rintro ⟨other, mark⟩
      exact ⟨mark, fun ⟨same, _⟩ => other same⟩
  · cases turn

/-- The state after `step4`: the stars are a new pairing, in which one more row has a star and no column has lost its own. -/
structure Augmented (s t : State nrows ncols) (row : Nat) : Prop where
  mdist : t.mdist = s.mdist
  ccol : t.ccol = s.ccol
  crow : t.crow = 0
  mprime : t.mprime = Vector.replicate dimFinger 0
  stars : Relator.BiUnique t.Star
  origin : ∀ r c, t.Star r c → s.Star r c ∨ s.Prime r c
  columnsKept : ∀ r c, s.Star r c → ∃ r', t.Star r' c
  starredRows : ∀ r, (∃ c, t.Star r c) ↔ r = row ∨ ∃ c, s.Star r c

theorem Starless.length_le (starless : Starless s rows row col) : rows.length ≤ nrows := by
  have sub : rows ⊆ List.range nrows := fun r member => List.mem_range.mpr (starless.inside r member)
  have le := (List.subperm_of_subset starless.chain.nodup sub).length_le
  rwa [List.length_range] at le

theorem step4_spec (rowsFit : nrows ≤ dimFinger) (colsFit : ncols ≤ dimFinger) (stars : Relator.BiUnique s.Star)
    (starless : Starless s rows row col) : ∃ t, step4 s row col = some t ∧ Augmented s t row := by
  have colBound := starless.primed.2.1
  have begins : OnPath s row rows.length ⟨set2 s.mstar row col, search nrows (get2 s.mstar · col), col⟩ := by
    refine ⟨rows, rfl, starless.chain, ?_, colBound, rfl⟩
    exact (Flipping.begin stars starless.chain starless.unstarred starless.primed starless.leads).congr fun r c =>
      marks_set2 rowsFit colsFit s.mstar starless.rowBound colBound
  obtain ⟨nmstar, ends, exchanged⟩ := Loop.run_ranked (R := fun nmstar => ∃ c todo, Flipping s.Star s.Prime row (Marks nrows ncols nmstar) c todo ∧
      ∀ r, ¬ s.Star r c) (onPath_turn rowsFit colsFit stars row) (fun n p nmstar here turn => by
        obtain ⟨todo, _, _, flipping, _, atStar⟩ := here
        unfold pathTurn at turn
        split at turn
        · cases turn
        · rename_i missed
          cases turn
          rw [atStar] at missed
          exact ⟨p.cstar, todo, flipping, unstarred_of_search_col missed⟩) begins (Nat.lt_succ_of_le starless.length_le)
  obtain ⟨c, todo, flipping, free⟩ := exchanged
  refine ⟨{ s with mstar := nmstar, mprime := Vector.replicate _ 0, crow := 0 }, by rw [step4, ends]; rfl, rfl, rfl, rfl, rfl, ?_, ?_, ?_, ?_⟩
  · exact flipping.biUnique free
  · exact flipping.origin
  · exact flipping.columnsKept
  · exact flipping.starredRows

/-! ### `step2a` -/

theorem get1_step2a (colsFit : ncols ≤ dimFinger) (s : State nrows ncols) {c : Nat} (cBound : c < ncols) :
    get1 (step2a s).ccol c = true ↔ get1 s.ccol c = true ∨ ∃ r, s.Star r c := by
  have bits := Lists.foldl_read (fun ccol : ColT => get1 ccol c) (fun bit => bit || decide (search nrows (get2 s.mstar · c) < nrows)) c
    (List.nodup_range (n := ncols))
    (fun ccol col => if search nrows (get2 s.mstar · col) < nrows then set1 ccol col else ccol) (fun ccol col _ => by
      split
      · rename_i found
        rw [get1_set1 (Nat.lt_of_lt_of_le cBound colsFit)]
        by_cases same : col = c
        · subst same
          simp [found]
        · have other : c ≠ col := fun h => same h.symm
          simp [same, other]
      · rename_i missed
        split
        · rename_i same
          subst same
          simp [missed]
        · rfl) s.ccol
  rw [if_pos (List.mem_range.mpr cBound)] at bits
  unfold step2a
  dsimp only at bits ⊢
  rw [bits, Bool.or_eq_true, decide_eq_true_eq]
  refine or_congr_right ⟨fun found => ⟨_, star_of_search_col cBound found⟩, ?_⟩
  rintro ⟨r, rBound, _, bit⟩
  exact search_lt rBound bit

/-- A state with no row covered, no prime, and no column covered but those that have a star. -/
structure Fresh (s : State nrows ncols) : Prop where
  crow : s.crow = 0
  mprime : s.mprime = Vector.replicate dimFinger 0
  colBits : ∀ c < ncols, get1 s.ccol c = true → ∃ r, s.Star r c

theorem Fresh.covered (fresh : Fresh s) (all : ∀ c < ncols, (∃ r, s.Star r c) → get1 s.ccol c = true) : Covered s [] where
  inside _ none := absurd none List.not_mem_nil
  rowBits r _ := by
    rw [fresh.crow, get1_zero]
    simp
  colBits c cBound := by
    constructor
    · intro bit
      obtain ⟨r, starred⟩ := fresh.colBits c cBound bit
      exact ⟨r, starred, List.not_mem_nil⟩
    · rintro ⟨r, starred, _⟩
      exact all c cBound ⟨r, starred⟩
  chain := trivial
  primes r c primed := by
    obtain ⟨_, _, bit⟩ := primed
    rw [fresh.mprime, get2_replicate] at bit
    exact absurd bit Bool.false_ne_true

theorem Augmented.fresh (augmented : Augmented s t row) (starless : Starless s rows row col) : Fresh t where
  crow := augmented.crow
  mprime := augmented.mprime
  colBits c cBound bit := by
    rw [augmented.ccol] at bit
    obtain ⟨r, starred⟩ := starless.colBits c cBound bit
    exact augmented.columnsKept r c starred

theorem Fresh.step2a (colsFit : ncols ≤ dimFinger) (fresh : Fresh s) : Covered (step2a s) [] := by
  refine Fresh.covered ⟨fresh.crow, fresh.mprime, fun c cBound bit => ?_⟩ fun c cBound starred => ?_
  · rcases (get1_step2a colsFit s cBound).mp bit with bit | starred
    · exact fresh.colBits c cBound bit
    · exact starred
  · exact (get1_step2a colsFit s cBound).mpr (Or.inr starred)

theorem Augmented.sound (augmented : Augmented s t row) (starless : Starless s rows row col) (sound : Sound s) : Sound t where
  stars := augmented.stars
  zeros r c starred := by
    rw [augmented.mdist]
    exact (augmented.origin r c starred).elim (sound.zeros r c) (starless.primeZeros r c)
  nonneg := augmented.mdist ▸ sound.nonneg

end Movid.Munkres
