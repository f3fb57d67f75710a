import Movid.Munkres.Prices

/-!
# What `ixoptimal` does before its first step

The smallest element of each line of the shorter side is taken from the line, and a first star is set in each line that has a zero which no
star hides yet.
-/

namespace Movid.Munkres

open Tracker (dimFinger)

variable {nrows ncols : Nat}

/-! ### Taking the smallest elements away -/

def line (mdist : Mdist nrows ncols) (r : Nat) : List Int := (List.range ncols).map (mdist.at r)

def column (mdist : Mdist nrows ncols) (c : Nat) : List Int := (List.range nrows).map (mdist.at · c)

/-- The distances with a number for each row and one for each column taken away. -/
structure Reduced (before after : Mdist nrows ncols) (a b : Nat → Int) : Prop where
  split : ∀ r < nrows, ∀ c < ncols, before.at r c = after.at r c + a r + b c
  nonneg : ∀ r < nrows, ∀ c < ncols, 0 ≤ after.at r c
  onlyRows : nrows ≤ ncols → ∀ c, b c = 0
  onlyCols : ncols < nrows → ∀ r, a r = 0
  positive : (∀ r < nrows, ∀ c < ncols, 0 ≤ before.at r c) → ∀ r < nrows, ∀ c < ncols, 0 ≤ a r ∧ 0 ≤ b c

theorem line_reduceRows (mdist : Mdist nrows ncols) {r : Nat} (rBound : r < nrows) :
    line ((List.range nrows).foldl reduceRow mdist) r = (line mdist r).map (· + -minValue (line mdist r)) := by
  have lines := Lists.foldl_read (fun mdist : Mdist nrows ncols => line mdist r) (fun l => l.map (· + -minValue l)) r
    (List.nodup_range (n := nrows)) reduceRow (fun mdist row member => by
      unfold line reduceRow
      split
      · rename_i same
        subst same
        rw [List.map_map]
        refine List.map_congr_left fun c inside => ?_
        rw [at_addRow mdist _ rBound rBound (List.mem_range.mp inside), if_pos rfl]
        rfl
      · rename_i other
        refine List.map_congr_left fun c inside => ?_
        rw [at_addRow mdist _ (List.mem_range.mp member) rBound (List.mem_range.mp inside), if_neg other]) mdist
  rwa [if_pos (List.mem_range.mpr rBound)] at lines

theorem column_reduceCols (mdist : Mdist nrows ncols) {c : Nat} (cBound : c < ncols) :
    column ((List.range ncols).foldl reduceCol mdist) c = (column mdist c).map (· + -minValue (column mdist c)) := by
  have lines := Lists.foldl_read (fun mdist : Mdist nrows ncols => column mdist c) (fun l => l.map (· + -minValue l)) c
    (List.nodup_range (n := ncols)) reduceCol (fun mdist col member => by
      unfold column reduceCol
      split
      · rename_i same
        subst same
        rw [List.map_map]
        refine List.map_congr_left fun r inside => ?_
        rw [at_addCol mdist _ cBound (List.mem_range.mp inside), if_pos rfl]
        rfl
      · rename_i other
        refine List.map_congr_left fun r inside => ?_
        rw [at_addCol mdist _ (List.mem_range.mp member) (List.mem_range.mp inside), if_neg other]) mdist
  rwa [if_pos (List.mem_range.mpr cBound)] at lines

theorem at_of_line {before after : Mdist nrows ncols} {r : Nat} {d : Int} (lines : line after r = (line before r).map (· + d)) {c : Nat}
    (cBound : c < ncols) : after.at r c = before.at r c + d := by
  unfold line at lines
  rw [List.map_map] at lines
  exact List.map_inj_left.mp lines c (List.mem_range.mpr cBound)

theorem at_of_column {before after : Mdist nrows ncols} {c : Nat} {d : Int} (lines : column after c = (column before c).map (· + d)) {r : Nat}
    (rBound : r < nrows) : after.at r c = before.at r c + d := by
  unfold column at lines
  rw [List.map_map] at lines
  exact List.map_inj_left.mp lines r (List.mem_range.mpr rBound)

theorem mem_line {mdist : Mdist nrows ncols} {r c : Nat} (cBound : c < ncols) : mdist.at r c ∈ line mdist r :=
  List.mem_map_of_mem (List.mem_range.mpr cBound)

theorem mem_column {mdist : Mdist nrows ncols} {r c : Nat} (rBound : r < nrows) : mdist.at r c ∈ column mdist c :=
  List.mem_map.mpr ⟨r, List.mem_range.mpr rBound, rfl⟩

theorem reduceRows_spec (wide : nrows ≤ ncols) (mdist : Mdist nrows ncols) :
    Reduced mdist ((List.range nrows).foldl reduceRow mdist) (fun r => minValue (line mdist r)) (fun _ => 0) where
  split r rBound c cBound := by
    rw [at_of_line (line_reduceRows mdist rBound) cBound]
    omega
  nonneg r rBound c cBound := by
    have least := minValue_le (mem_line cBound : mdist.at r c ∈ line mdist r)
    rw [at_of_line (line_reduceRows mdist rBound) cBound]
    omega
  onlyRows _ _ := rfl
  onlyCols narrow := absurd wide (Nat.not_le.mpr narrow)
  positive before r rBound c cBound := by
    refine ⟨?_, le_rfl⟩
    obtain ⟨c', inside, same⟩ := List.mem_map.mp (minValue_mem (List.ne_nil_of_mem (mem_line cBound : mdist.at r c ∈ line mdist r)))
    exact same ▸ before r rBound c' (List.mem_range.mp inside)

theorem reduceCols_spec (narrow : ncols < nrows) (mdist : Mdist nrows ncols) :
    Reduced mdist ((List.range ncols).foldl reduceCol mdist) (fun _ => 0) (fun c => minValue (column mdist c)) where
  split r rBound c cBound := by
    rw [at_of_column (column_reduceCols mdist cBound) rBound]
    omega
  nonneg r rBound c cBound := by
    have least := minValue_le (mem_column rBound : mdist.at r c ∈ column mdist c)
    rw [at_of_column (column_reduceCols mdist cBound) rBound]
    omega
  onlyRows wide := absurd wide (Nat.not_le.mpr narrow)
  onlyCols _ _ := rfl
  positive before r rBound c cBound := by
    refine ⟨le_rfl, ?_⟩
    obtain ⟨r', inside, same⟩ := List.mem_map.mp (minValue_mem (List.ne_nil_of_mem (mem_column rBound : mdist.at r c ∈ column mdist c)))
    exact same ▸ before r' (List.mem_range.mp inside) c cBound

/-! ### The first stars -/

/-- The state while the first stars are set. -/
structure Starring (mdist : Mdist nrows ncols) (s : State nrows ncols) : Prop where
  mdist : s.mdist = mdist
  mprime : s.mprime = Vector.replicate dimFinger 0
  stars : Relator.BiUnique s.Star
  zeros : ∀ r c, s.Star r c → s.mdist.at r c = 0
  colBits : ∀ c < ncols, get1 s.ccol c = true ↔ ∃ r, s.Star r c

variable {mdist : Mdist nrows ncols} {s : State nrows ncols}

theorem blank_star (mdist : Mdist nrows ncols) (r c : Nat) : ¬ (blank mdist).Star r c := by
  rintro ⟨_, _, bit⟩
  unfold blank at bit
  rw [get2_replicate] at bit
  exact Bool.false_ne_true bit

theorem starring_blank (mdist : Mdist nrows ncols) : Starring mdist (blank mdist) where
  mdist := rfl
  mprime := rfl
  stars := ⟨fun r r' c starred _ => absurd starred (blank_star mdist r c), fun r c c' starred _ => absurd starred (blank_star mdist r c)⟩
  zeros r c starred := absurd starred (blank_star mdist r c)
  colBits c _ := by
    have zero : get1 (blank mdist).ccol c = false := get1_zero c
    rw [zero]
    simp [blank_star]

/-- A star in a row and a column that have none. -/
theorem Starring.place (rowsFit : nrows ≤ dimFinger) (colsFit : ncols ≤ dimFinger) (starring : Starring mdist s) {row col : Nat}
    (rowBound : row < nrows) (colBound : col < ncols) (zero : s.mdist.at row col = 0) (rowFree : ∀ c, ¬ s.Star row c)
    (colFree : ∀ r, ¬ s.Star r col) (crow : ColT) :
    Starring mdist { s with mstar := set2 s.mstar row col, ccol := set1 s.ccol col, crow := crow } where
  mdist := starring.mdist
  mprime := starring.mprime
  stars := by
    have marks := @marks_set2 nrows ncols rowsFit colsFit s.mstar row col rowBound colBound
    constructor
    · intro r r' c first second
      rcases marks.mp first with here | ⟨rfl, rfl⟩ <;> rcases marks.mp second with there | ⟨same, last⟩
      · exact starring.stars.1 here there
      · exact absurd (last ▸ here) (colFree r)
      · exact absurd there (colFree r')
      · exact same.symm
    · intro r c c' first second
      rcases marks.mp first with here | ⟨rfl, rfl⟩ <;> rcases marks.mp second with there | ⟨same, rfl⟩
      · exact starring.stars.2 here there
      · exact absurd (same ▸ here) (rowFree c)
      · exact absurd there (rowFree c')
      · rfl
  zeros r c starred := by
    rcases (marks_set2 rowsFit colsFit s.mstar rowBound colBound).mp starred with old | ⟨rfl, rfl⟩
    · exact starring.zeros r c old
    · exact zero
  colBits c cBound := by
    rw [get1_set1 (Nat.lt_of_lt_of_le cBound colsFit), Bool.or_eq_true, decide_eq_true_eq, starring.colBits c cBound]
    constructor
    · rintro (⟨r, starred⟩ | rfl)
      · exact ⟨r, (marks_set2 rowsFit colsFit s.mstar rowBound colBound).mpr (Or.inl starred)⟩
      · exact ⟨row, (marks_set2 rowsFit colsFit s.mstar rowBound colBound).mpr (Or.inr ⟨rfl, rfl⟩)⟩
    · rintro ⟨r, starred⟩
      rcases (marks_set2 rowsFit colsFit s.mstar rowBound colBound).mp starred with old | ⟨_, same⟩
      · exact Or.inl ⟨r, old⟩
      · exact Or.inr same

theorem starRows_spec (rowsFit : nrows ≤ dimFinger) (colsFit : ncols ≤ dimFinger) (mdist : Mdist nrows ncols) {n : Nat} (le : n ≤ nrows) :
    Starring mdist ((List.range n).foldl starRow (blank mdist)) ∧ ((List.range n).foldl starRow (blank mdist)).crow = 0 ∧
      ∀ r c, ((List.range n).foldl starRow (blank mdist)).Star r c → r < n := by
  induction n with
  | zero => exact ⟨starring_blank mdist, rfl, fun r c starred => absurd starred (blank_star mdist r c)⟩
  | succ n ih =>
    obtain ⟨starring, crow, below⟩ := ih (Nat.le_of_succ_le le)
    rw [List.range_succ, List.foldl_append, List.foldl_cons, List.foldl_nil]
    generalize (List.range n).foldl starRow (blank mdist) = s at starring crow below
    unfold starRow
    dsimp only
    split
    · rename_i found
      obtain ⟨zero, free⟩ := (Bool.and_eq_true _ _).mp (search_spec found)
      have rowFree : ∀ c, ¬ s.Star n c := fun c starred => Nat.lt_irrefl n (below n c starred)
      have colFree : ∀ r, ¬ s.Star r (search ncols fun col => s.mdist.at n col == 0 && !get1 s.ccol col) := fun r starred => by
        rw [(starring.colBits _ found).mpr ⟨r, starred⟩] at free
        exact Bool.false_ne_true free
      refine ⟨starring.place rowsFit colsFit le found (beq_iff_eq.mp zero) rowFree colFree s.crow, crow, fun r c starred => ?_⟩
      rcases (marks_set2 rowsFit colsFit s.mstar le found).mp starred with old | ⟨rfl, _⟩
      · exact Nat.lt_succ_of_lt (below r c old)
      · exact Nat.lt_succ_self r
    · exact ⟨starring, crow, fun r c starred => Nat.lt_succ_of_lt (below r c starred)⟩

theorem starCols_spec (rowsFit : nrows ≤ dimFinger) (colsFit : ncols ≤ dimFinger) (mdist : Mdist nrows ncols) {n : Nat} (le : n ≤ ncols) :
    Starring mdist ((List.range n).foldl starCol (blank mdist)) ∧
      (∀ r < nrows, get1 ((List.range n).foldl starCol (blank mdist)).crow r = true ↔
        ∃ c, ((List.range n).foldl starCol (blank mdist)).Star r c) ∧
      ∀ r c, ((List.range n).foldl starCol (blank mdist)).Star r c → c < n := by
  induction n with
  | zero =>
    refine ⟨starring_blank mdist, fun r _ => ?_, fun r c starred => absurd starred (blank_star mdist r c)⟩
    have zero : get1 (blank mdist).crow r = false := get1_zero r
    rw [List.range_zero, List.foldl_nil, zero]
    simp [blank_star]
  | succ n ih =>
    obtain ⟨starring, rowBits, below⟩ := ih (Nat.le_of_succ_le le)
    rw [List.range_succ, List.foldl_append, List.foldl_cons, List.foldl_nil]
    generalize (List.range n).foldl starCol (blank mdist) = s at starring rowBits below
    unfold starCol
    dsimp only
    split
    · rename_i found
      obtain ⟨zero, free⟩ := (Bool.and_eq_true _ _).mp (search_spec found)
      have colFree : ∀ r, ¬ s.Star r n := fun r starred => Nat.lt_irrefl n (below r n starred)
      have rowFree : ∀ c, ¬ s.Star (search nrows fun row => s.mdist.at row n == 0 && !get1 s.crow row) c := fun c starred => by
        rw [(rowBits _ found).mpr ⟨c, starred⟩] at free
        exact Bool.false_ne_true free
      refine ⟨starring.place rowsFit colsFit found le (beq_iff_eq.mp zero) rowFree colFree _, fun r rBound => ?_, fun r c starred => ?_⟩
      · rw [get1_set1 (Nat.lt_of_lt_of_le rBound rowsFit), Bool.or_eq_true, decide_eq_true_eq, rowBits r rBound]
        constructor
        · rintro (⟨c, starred⟩ | same)
          · exact ⟨c, (marks_set2 rowsFit colsFit s.mstar found le).mpr (Or.inl starred)⟩
          · exact ⟨n, (marks_set2 rowsFit colsFit s.mstar found le).mpr (Or.inr ⟨same, rfl⟩)⟩
        · rintro ⟨c, starred⟩
          rcases (marks_set2 rowsFit colsFit s.mstar found le).mp starred with old | ⟨same, _⟩
          · exact Or.inl ⟨c, old⟩
          · exact Or.inr same
      · rcases (marks_set2 rowsFit colsFit s.mstar found le).mp starred with old | ⟨_, rfl⟩
        · exact Nat.lt_succ_of_lt (below r c old)
        · exact Nat.lt_succ_self c
    · exact ⟨starring, rowBits, fun r c starred => Nat.lt_succ_of_lt (below r c starred)⟩

theorem Starring.covered (starring : Starring mdist s) (crow : s.crow = 0) : Covered s [] :=
  Fresh.covered ⟨crow, starring.mprime, fun c cBound bit => (starring.colBits c cBound).mp bit⟩
    fun c cBound starred => (starring.colBits c cBound).mpr starred

/-- The state that the first call of `step2b` gets. -/
theorem prepare_spec (rowsFit : nrows ≤ dimFinger) (colsFit : ncols ≤ dimFinger) (mdist : Mdist nrows ncols) :
    Sound (prepare mdist) ∧ Covered (prepare mdist) [] ∧ ∃ a b, Reduced mdist (prepare mdist).mdist a b := by
  unfold prepare
  split
  · rename_i wide
    have reduced := reduceRows_spec wide mdist
    obtain ⟨starring, crow, _⟩ := starRows_spec rowsFit colsFit ((List.range nrows).foldl reduceRow mdist) le_rfl
    rw [← starring.mdist] at reduced
    exact ⟨⟨starring.stars, starring.zeros, reduced.nonneg⟩, starring.covered crow, _, _, reduced⟩
  · rename_i narrow
    have reduced := reduceCols_spec (Nat.not_le.mp narrow) mdist
    obtain ⟨starring, _, _⟩ := starCols_spec rowsFit colsFit ((List.range ncols).foldl reduceCol mdist) le_rfl
    rw [← starring.mdist] at reduced
    have uncovered : Starring _ { (List.range ncols).foldl starCol (blank ((List.range ncols).foldl reduceCol mdist)) with crow := 0 } :=
      ⟨starring.mdist, starring.mprime, starring.stars, starring.zeros, starring.colBits⟩
    exact ⟨⟨starring.stars, starring.zeros, reduced.nonneg⟩, uncovered.covered rfl, _, _, reduced⟩

end Movid.Munkres
