import Mathlib.Logic.Relator
import Mathlib.Tactic.Common

/-!
# Exchanging stars for primes along a path

`star` relates each row to at most one column and each column to at most one row. A path starts at a prime whose row has no star; from
the star in the column of a prime it goes on to the prime in the row of that star. Exchanging the stars on the path for its primes gives
one more row a star. Such a path ends since every prime was set before the rows its path leads away from: a list of rows, the latest
first, in which each prime leads to an older row.
-/

namespace Alternating

variable {ι κ : Type*} {star prime : ι → κ → Prop}

/-- Rows that have both a star and one prime; the star in the column of the prime is in an older row. -/
def Chain (star prime : ι → κ → Prop) : List ι → Prop
  | [] => True
  | row :: older =>
    row ∉ older ∧ (∃ col, star row col) ∧ (∃ col, prime row col ∧ (∀ other, prime row other → other = col) ∧ ∀ r, star r col → r ∈ older) ∧
      Chain star prime older

theorem Chain.of_append {newer older : List ι} (chain : Chain star prime (newer ++ older)) : Chain star prime older := by
  induction newer with
  | nil => exact chain
  | cons row newer ih => exact ih chain.2.2.2

theorem Chain.starred {rows : List ι} (chain : Chain star prime rows) {row : ι} (member : row ∈ rows) : ∃ col, star row col := by
  obtain ⟨newer, older, rfl⟩ := List.append_of_mem member
  exact chain.of_append.2.1

/-- The column of a prime has no star, or one in a row of the chain. -/
theorem Chain.closed {rows : List ι} (chain : Chain star prime rows) {row r : ι} {col : κ} (member : row ∈ rows) (primed : prime row col)
    (starred : star r col) : r ∈ rows := by
  obtain ⟨newer, older, rfl⟩ := List.append_of_mem member
  obtain ⟨_, _, ⟨col', _, only, leads⟩, _⟩ := chain.of_append
  obtain rfl := only col primed
  exact List.mem_append_right _ (List.mem_cons_of_mem _ (leads r starred))

theorem Chain.nodup {rows : List ι} (chain : Chain star prime rows) : rows.Nodup := by
  induction rows with
  | nil => exact List.nodup_nil
  | cons row older ih => exact List.nodup_cons.mpr ⟨chain.1, ih chain.2.2.2⟩

/-- A chain does not look at the primes of other rows. -/
theorem Chain.congr {prime' : ι → κ → Prop} {rows : List ι} (chain : Chain star prime rows)
    (same : ∀ row ∈ rows, ∀ col, prime' row col ↔ prime row col) : Chain star prime' rows := by
  induction rows with
  | nil => trivial
  | cons row older ih =>
    obtain ⟨new, starred, ⟨col, primed, only, leads⟩, chain⟩ := chain
    have here := same row List.mem_cons_self
    exact ⟨new, starred, ⟨col, (here col).mpr primed, fun other primed => only other ((here other).mp primed), leads⟩,
      ih chain fun r member => same r (List.mem_cons_of_mem _ member)⟩

/-- The stars after part of the exchange: the last star set is in `column`, and the rows of `todo` have not been touched. -/
structure Flipping (star prime : ι → κ → Prop) (start : ι) (flipped : ι → κ → Prop) (column : κ) (todo : List ι) : Prop where
  rows : Relator.RightUnique flipped
  columns : ∀ r r' col, flipped r col → flipped r' col → r = r' ∨ (col = column ∧ (star r col ∨ star r' col))
  origin : ∀ r col, flipped r col → star r col ∨ prime r col
  untouched : ∀ r ∈ todo, ∀ col, flipped r col ↔ star r col
  next : ∀ r, star r column → r ∈ todo
  placed : ∃ r, flipped r column ∧ ¬ star r column
  within : ∀ r col, flipped r col → col = column ∨ ∃ r', star r' col
  columnsKept : ∀ r col, star r col → ∃ r', flipped r' col
  starredRows : ∀ r, (∃ col, flipped r col) ↔ r = start ∨ ∃ col, star r col

/-- The first prime of the path gets its star. -/
theorem Flipping.begin (stars : Relator.BiUnique star) {chain : List ι} (rows : Chain star prime chain) {start : ι} {column : κ}
    (unstarred : ∀ col, ¬ star start col) (primed : prime start column) (leads : ∀ r, star r column → r ∈ chain) :
    Flipping star prime start (fun r col => star r col ∨ (r = start ∧ col = column)) column chain where
  rows r col col' := by
    rintro (here | ⟨rfl, rfl⟩) (there | ⟨same, rfl⟩)
    · exact stars.2 here there
    · exact absurd (same ▸ here) (unstarred col)
    · exact absurd there (unstarred col')
    · rfl
  columns r r' col := by
    rintro (here | ⟨rfl, rfl⟩) (there | ⟨same, last⟩)
    · exact Or.inl (stars.1 here there)
    · exact Or.inr ⟨last, Or.inl here⟩
    · exact Or.inr ⟨rfl, Or.inr there⟩
    · exact Or.inl same.symm
  origin r col := by
    rintro (here | ⟨rfl, rfl⟩)
    · exact Or.inl here
    · exact Or.inr primed
  untouched r member col := by
    refine or_iff_left fun ⟨same, _⟩ => ?_
    obtain ⟨col', starred⟩ := rows.starred member
    exact unstarred col' (same ▸ starred)
  next := leads
  placed := ⟨start, Or.inr ⟨rfl, rfl⟩, unstarred column⟩
  within r col := by
    rintro (here | ⟨_, same⟩)
    · exact Or.inr ⟨r, here⟩
    · exact Or.inl same
  columnsKept r col starred := ⟨r, Or.inl starred⟩
  starredRows r := by
    constructor
    · rintro ⟨col, here | ⟨same, _⟩⟩
      · exact Or.inr ⟨col, here⟩
      · exact Or.inl same
    · rintro (same | ⟨col, here⟩)
      · exact ⟨column, Or.inr ⟨same, rfl⟩⟩
      · exact ⟨col, Or.inl here⟩

/-- The star of the last column is exchanged for the prime in its row. -/
theorem Flipping.step (stars : Relator.BiUnique star) {start row : ι} {flipped : ι → κ → Prop} {column col : κ} {newer older : List ι}
    (flipping : Flipping star prime start flipped column (newer ++ row :: older)) (chain : Chain star prime (newer ++ row :: older))
    (starred : star row column) (primed : prime row col) :
    Flipping star prime start (fun r c => (r ≠ row ∧ flipped r c) ∨ (r = row ∧ c = col)) col older := by
  obtain ⟨new, _, ⟨col', _, only, leads⟩, _⟩ := chain.of_append
  obtain rfl := only col primed
  have rowUntouched := flipping.untouched row (List.mem_append_right _ List.mem_cons_self)
  have olderUntouched : ∀ r ∈ older, ∀ c, flipped r c ↔ star r c := fun r member =>
    flipping.untouched r (List.mem_append_right _ (List.mem_cons_of_mem _ member))
  have elsewhere : col ≠ column := by
    rintro rfl
    exact new (leads row starred)
  -- Another star in the column of the prime is the one that the path meets next.
  have met : ∀ r, flipped r col → star r col := fun r there => by
    obtain ⟨r', starred'⟩ := (flipping.within r col there).resolve_left elsewhere
    have there' := (olderUntouched r' (leads r' starred') col).mpr starred'
    obtain rfl := (flipping.columns r r' col there there').resolve_right fun ⟨same, _⟩ => elsewhere same
    exact starred'
  constructor
  · rintro r c c' (⟨other, here⟩ | ⟨rfl, rfl⟩) (⟨other', there⟩ | ⟨same, rfl⟩)
    · exact flipping.rows here there
    · exact absurd same other
    · exact absurd rfl other'
    · rfl
  · rintro r r' c (⟨other, here⟩ | ⟨rfl, rfl⟩) (⟨other', there⟩ | ⟨same, last⟩)
    · refine Or.inl ((flipping.columns r r' c here there).resolve_right ?_)
      rintro ⟨rfl, starred' | starred'⟩
      · exact other (stars.1 starred' starred)
      · exact other' (stars.1 starred' starred)
    · subst last
      exact Or.inr ⟨rfl, Or.inl (met r here)⟩
    · exact Or.inr ⟨rfl, Or.inr (met r' there)⟩
    · exact Or.inl same.symm
  · rintro r c (⟨_, here⟩ | ⟨rfl, rfl⟩)
    · exact flipping.origin r c here
    · exact Or.inr primed
  · intro r member c
    have other : r ≠ row := fun same => new (same ▸ member)
    rw [← olderUntouched r member c]
    exact ⟨fun h => h.elim And.right fun ⟨same, _⟩ => absurd same other, fun here => Or.inl ⟨other, here⟩⟩
  · exact leads
  · exact ⟨row, Or.inr ⟨rfl, rfl⟩, fun starred' => elsewhere (stars.2 starred' starred)⟩
  · rintro r c (⟨_, here⟩ | ⟨_, same⟩)
    · rcases flipping.within r c here with rfl | old
      · exact Or.inr ⟨row, starred⟩
      · exact Or.inr old
    · exact Or.inl same
  · intro r c starred'
    obtain ⟨r', here⟩ := flipping.columnsKept r c starred'
    by_cases same : r' = row
    · subst same
      -- The star that goes away leaves its column to the prime that was set before it.
      obtain rfl := stars.2 ((rowUntouched c).mp here) starred
      obtain ⟨p, placed, unstarred⟩ := flipping.placed
      exact ⟨p, Or.inl ⟨fun same => unstarred (same ▸ starred), placed⟩⟩
    · exact ⟨r', Or.inl ⟨same, here⟩⟩
  · intro r
    rw [← flipping.starredRows r]
    constructor
    · rintro ⟨c, ⟨_, here⟩ | ⟨rfl, rfl⟩⟩
      · exact ⟨c, here⟩
      · exact ⟨column, (rowUntouched column).mpr starred⟩
    · rintro ⟨c, here⟩
      by_cases same : r = row
      · exact ⟨col, Or.inr ⟨same, rfl⟩⟩
      · exact ⟨c, Or.inl ⟨same, here⟩⟩

/-- At a column without a star the exchange is complete. -/
theorem Flipping.biUnique {start : ι} {flipped : ι → κ → Prop} {column : κ} {todo : List ι}
    (flipping : Flipping star prime start flipped column todo) (free : ∀ r, ¬ star r column) : Relator.BiUnique flipped := by
  refine ⟨fun r r' col here there => (flipping.columns r r' col here there).resolve_right ?_, flipping.rows⟩
  rintro ⟨rfl, starred | starred⟩
  · exact free r starred
  · exact free r' starred

theorem Flipping.congr {start : ι} {flipped flipped' : ι → κ → Prop} {column : κ} {todo : List ι}
    (flipping : Flipping star prime start flipped column todo) (same : ∀ r col, flipped' r col ↔ flipped r col) :
    Flipping star prime start flipped' column todo := by
  obtain rfl : flipped' = flipped := funext₂ fun r col => propext (same r col)
  exact flipping

end Alternating
