import Movid.Lib.Alternating
import Movid.Munkres.Words

/-!
# Covering rows until a zero without a star in its row turns up

`step3` primes uncovered zeros. A row whose zero is primed is covered, and the column of its star is uncovered again. The covered rows, the
latest first, are then a chain: the prime in each of them is in a column that has no star or has it in an older row.
-/

namespace Movid.Munkres

open Alternating (Chain)
open Tracker (dimFinger)

variable {nrows ncols : Nat}

/-- The bits of a word matrix inside the rows and columns in use. -/
def Marks (nrows ncols : Nat) (m : MatT) (row col : Nat) : Prop := row < nrows ∧ col < ncols ∧ get2 m row col = true

def State.Star (s : State nrows ncols) : Nat → Nat → Prop := Marks nrows ncols s.mstar

def State.Prime (s : State nrows ncols) : Nat → Nat → Prop := Marks nrows ncols s.mprime

/-- The stars are on zeros, and no two in one row or column. -/
structure Sound (s : State nrows ncols) : Prop where
  stars : Relator.BiUnique s.Star
  zeros : ∀ r c, s.Star r c → s.mdist.at r c = 0
  nonneg : ∀ r < nrows, ∀ c < ncols, 0 ≤ s.mdist.at r c

/-- The covers while zeros are primed: the rows of the list, and the columns of the stars in the other rows. -/
structure Covered (s : State nrows ncols) (rows : List Nat) : Prop where
  inside : ∀ r ∈ rows, r < nrows
  rowBits : ∀ r < nrows, get1 s.crow r = true ↔ r ∈ rows
  colBits : ∀ c < ncols, get1 s.ccol c = true ↔ ∃ r, s.Star r c ∧ r ∉ rows
  chain : Chain s.Star s.Prime rows
  primes : ∀ r c, s.Prime r c → r ∈ rows ∧ s.mdist.at r c = 0

/-- What `step4` is called with: a primed zero in a row without a star. -/
structure Starless (s : State nrows ncols) (rows : List Nat) (row col : Nat) : Prop where
  rowBound : row < nrows
  inside : ∀ r ∈ rows, r < nrows
  chain : Chain s.Star s.Prime rows
  primed : s.Prime row col
  unstarred : ∀ c, ¬ s.Star row c
  leads : ∀ r, s.Star r col → r ∈ rows
  primeZeros : ∀ r c, s.Prime r c → s.mdist.at r c = 0
  colBits : ∀ c < ncols, get1 s.ccol c = true → ∃ r, s.Star r c

/-- A zero that no cover hides. -/
def OpenZero (s : State nrows ncols) (row col : Nat) : Prop :=
  row < nrows ∧ col < ncols ∧ s.mdist.at row col = 0 ∧ get1 s.crow row = false ∧ get1 s.ccol col = false

theorem marks_set2 (rowsFit : nrows ≤ dimFinger) (colsFit : ncols ≤ dimFinger) (m : MatT) {row col : Nat} (rowBound : row < nrows)
    (colBound : col < ncols) {r c : Nat} : Marks nrows ncols (set2 m row col) r c ↔ Marks nrows ncols m r c ∨ (r = row ∧ c = col) := by
  constructor
  · rintro ⟨rBound, cBound, bit⟩
    rcases (get2_set2 m (Nat.lt_of_lt_of_le rBound rowsFit) (Nat.lt_of_lt_of_le colBound colsFit)).mp bit with bit | same
    · exact Or.inl ⟨rBound, cBound, bit⟩
    · exact Or.inr same
  · rintro (⟨rBound, cBound, bit⟩ | ⟨rfl, rfl⟩)
    · exact ⟨rBound, cBound, (get2_set2 m (Nat.lt_of_lt_of_le rBound rowsFit) (Nat.lt_of_lt_of_le colBound colsFit)).mpr (Or.inl bit)⟩
    · exact ⟨rowBound, colBound,
        (get2_set2 m (Nat.lt_of_lt_of_le rowBound rowsFit) (Nat.lt_of_lt_of_le colBound colsFit)).mpr (Or.inr ⟨rfl, rfl⟩)⟩

/-- The search for the star of a row. -/
theorem star_of_search {s : State nrows ncols} {row : Nat} (rowBound : row < nrows) (found : search ncols (get2 s.mstar row) < ncols) :
    s.Star row (search ncols (get2 s.mstar row)) :=
  ⟨rowBound, found, search_spec found⟩

theorem unstarred_of_search {s : State nrows ncols} {row : Nat} (missed : ¬ search ncols (get2 s.mstar row) < ncols) (c : Nat) :
    ¬ s.Star row c := by
  rintro ⟨_, cBound, bit⟩
  rw [search_none missed cBound] at bit
  exact Bool.false_ne_true bit

variable {s : State nrows ncols} {rows : List Nat}

/-- An uncovered column has no star outside the covered rows. -/
theorem Covered.leads (covered : Covered s rows) {col : Nat} (uncovered : get1 s.ccol col = false) {r : Nat} (starred : s.Star r col) :
    r ∈ rows := by
  by_contra out
  rw [(covered.colBits col starred.2.1).mpr ⟨r, starred, out⟩] at uncovered
  exact Bool.false_ne_true uncovered.symm

theorem Covered.not_mem (covered : Covered s rows) {row : Nat} (rowBound : row < nrows) (uncovered : get1 s.crow row = false) : row ∉ rows := by
  intro member
  rw [(covered.rowBits row rowBound).mpr member] at uncovered
  exact Bool.false_ne_true uncovered.symm

section Prime

variable {row col : Nat}

/-- A prime in a new row does not disturb the chain. -/
theorem Covered.chain_prime (rowsFit : nrows ≤ dimFinger) (colsFit : ncols ≤ dimFinger) (covered : Covered s rows) (zero : OpenZero s row col) :
    Chain s.Star (Marks nrows ncols (set2 s.mprime row col)) rows :=
  covered.chain.congr fun r member c => by
    rw [marks_set2 rowsFit colsFit s.mprime zero.1 zero.2.1]
    exact or_iff_left fun ⟨same, _⟩ => covered.not_mem zero.1 zero.2.2.2.1 (same ▸ member)

theorem Covered.prime_zeros (rowsFit : nrows ≤ dimFinger) (colsFit : ncols ≤ dimFinger) (covered : Covered s rows) (zero : OpenZero s row col)
    {r c : Nat} (primed : Marks nrows ncols (set2 s.mprime row col) r c) : (r = row ∨ r ∈ rows) ∧ s.mdist.at r c = 0 := by
  rcases (marks_set2 rowsFit colsFit s.mprime zero.1 zero.2.1).mp primed with old | ⟨rfl, rfl⟩
  · exact ⟨Or.inr (covered.primes r c old).1, (covered.primes r c old).2⟩
  · exact ⟨Or.inl rfl, zero.2.2.1⟩

/-- The primed zero whose row has no star. -/
theorem Covered.starless (rowsFit : nrows ≤ dimFinger) (colsFit : ncols ≤ dimFinger) (covered : Covered s rows) (zero : OpenZero s row col)
    (unstarred : ∀ c, ¬ s.Star row c) : Starless { s with mprime := set2 s.mprime row col } rows row col where
  rowBound := zero.1
  inside := covered.inside
  chain := covered.chain_prime rowsFit colsFit zero
  primed := (marks_set2 rowsFit colsFit s.mprime zero.1 zero.2.1).mpr (Or.inr ⟨rfl, rfl⟩)
  unstarred := unstarred
  leads _ starred := covered.leads zero.2.2.2.2 starred
  primeZeros _ _ primed := (covered.prime_zeros rowsFit colsFit zero primed).2
  colBits c cBound bit := by
    obtain ⟨r, starred, _⟩ := (covered.colBits c cBound).mp bit
    exact ⟨r, starred⟩

/-- The primed zero whose row has a star: its row is covered in place of the column of the star. -/
theorem Covered.cover (rowsFit : nrows ≤ dimFinger) (colsFit : ncols ≤ dimFinger) (stars : Relator.BiUnique s.Star) (covered : Covered s rows)
    (zero : OpenZero s row col) {cstar : Nat} (starred : s.Star row cstar) :
    Covered { s with mprime := set2 s.mprime row col, crow := set1 s.crow row, ccol := clear1 s.ccol cstar } (row :: rows) := by
  have new := covered.not_mem zero.1 zero.2.2.2.1
  constructor
  · intro r member
    rcases List.mem_cons.mp member with rfl | old
    · exact zero.1
    · exact covered.inside r old
  · intro r rBound
    rw [get1_set1 (Nat.lt_of_lt_of_le rBound rowsFit), Bool.or_eq_true, decide_eq_true_eq, covered.rowBits r rBound, List.mem_cons, or_comm]
  · intro c cBound
    rw [get1_clear1 (Nat.lt_of_lt_of_le cBound colsFit), Bool.and_eq_true, decide_eq_true_eq, covered.colBits c cBound]
    constructor
    · rintro ⟨⟨r, there, out⟩, other⟩
      refine ⟨r, there, fun member => ?_⟩
      rcases List.mem_cons.mp member with rfl | old
      · exact other (stars.2 there starred)
      · exact out old
    · rintro ⟨r, there, out⟩
      refine ⟨⟨r, there, fun old => out (List.mem_cons_of_mem _ old)⟩, ?_⟩
      rintro rfl
      exact out (stars.1 there starred ▸ List.mem_cons_self)
  · refine ⟨new, ⟨cstar, starred⟩, ⟨col, ?_, ?_, fun r there => covered.leads zero.2.2.2.2 there⟩, covered.chain_prime rowsFit colsFit zero⟩
    · exact (marks_set2 rowsFit colsFit s.mprime zero.1 zero.2.1).mpr (Or.inr ⟨rfl, rfl⟩)
    · intro other primed
      rcases (marks_set2 rowsFit colsFit s.mprime zero.1 zero.2.1).mp primed with old | ⟨_, same⟩
      · exact absurd (covered.primes row other old).1 new
      · exact same
  · intro r c primed
    obtain ⟨member, zeroAt⟩ := covered.prime_zeros rowsFit colsFit zero primed
    exact ⟨List.mem_cons.mpr member, zeroAt⟩

end Prime

/-! ### A pass -/

/-- What a pass leaves as it was. -/
def SameStars (s t : State nrows ncols) : Prop := t.mdist = s.mdist ∧ t.mstar = s.mstar

/-- How a pass over the columns can end, the rows of `newer` having been covered on the way. -/
inductive PassEnd (s : State nrows ncols) (cols : List Nat) (zerosFound : Bool) (rows : List Nat) : Pass nrows ncols → Prop
  | starless (t : State nrows ncols) (newer : List Nat) (row col : Nat) : SameStars s t → Starless t (newer ++ rows) row col →
      PassEnd s cols zerosFound rows (.starless t row col)
  | quiet : (∀ col ∈ cols, ∀ row, ¬ OpenZero s row col) → PassEnd s cols zerosFound rows (.passed s zerosFound)
  | found (t : State nrows ncols) (newer : List Nat) : SameStars s t → Covered t (newer ++ rows) → newer ≠ [] →
      PassEnd s cols zerosFound rows (.passed t true)

/-- The search for an uncovered zero in an uncovered column. -/
theorem openZero_of_search {col : Nat} (colBound : col < ncols) (uncovered : get1 s.ccol col = false)
    (found : search nrows (fun row => s.mdist.at row col == 0 && !get1 s.crow row) < nrows) :
    OpenZero s (search nrows fun row => s.mdist.at row col == 0 && !get1 s.crow row) col := by
  obtain ⟨zero, row⟩ := (Bool.and_eq_true _ _).mp (search_spec found)
  exact ⟨found, colBound, beq_iff_eq.mp zero, by simpa using row, uncovered⟩

theorem not_openZero_of_search {col : Nat} (missed : ¬ search nrows (fun row => s.mdist.at row col == 0 && !get1 s.crow row) < nrows)
    (row : Nat) : ¬ OpenZero s row col := by
  rintro ⟨rowBound, _, zero, uncovered, _⟩
  have none := search_none missed rowBound
  simp [zero, uncovered] at none

theorem PassEnd.skip {col : Nat} {cols : List Nat} {zerosFound : Bool} {pass : Pass nrows ncols} (quiet : ∀ row, ¬ OpenZero s row col)
    (later : PassEnd s cols zerosFound rows pass) : PassEnd s (col :: cols) zerosFound rows pass := by
  cases later with
  | starless t newer row col same starless => exact .starless t newer row col same starless
  | quiet rest =>
    refine .quiet fun c member row => ?_
    rcases List.mem_cons.mp member with rfl | member
    · exact quiet row
    · exact rest c member row
  | found t newer same covered some' => exact .found t newer same covered some'

theorem PassEnd.after_cover {t : State nrows ncols} {row : Nat} {cols cols' : List Nat} {zerosFound : Bool} {pass : Pass nrows ncols}
    (same : SameStars s t) (covered : Covered t (row :: rows)) (later : PassEnd t cols true (row :: rows) pass) :
    PassEnd s cols' zerosFound rows pass := by
  have split : ∀ newer, newer ++ row :: rows = (newer ++ [row]) ++ rows := fun newer => by
    rw [List.append_assoc, List.singleton_append]
  have trans : ∀ u, SameStars t u → SameStars s u := fun u then' => ⟨then'.1.trans same.1, then'.2.trans same.2⟩
  cases later with
  | starless u newer r c then' starless => exact .starless u (newer ++ [row]) r c (trans u then') (split newer ▸ starless)
  | quiet rest => exact .found t [row] same covered (List.cons_ne_nil _ _)
  | found u newer then' covered some' =>
    exact .found u (newer ++ [row]) (trans u then') (split newer ▸ covered) (List.append_ne_nil_of_right_ne_nil _ (List.cons_ne_nil _ _))

theorem step3_spec (rowsFit : nrows ≤ dimFinger) (colsFit : ncols ≤ dimFinger) {cols : List Nat} (bounds : ∀ col ∈ cols, col < ncols)
    {s : State nrows ncols} {rows : List Nat} (stars : Relator.BiUnique s.Star) (covered : Covered s rows) (zerosFound : Bool) :
    PassEnd s cols zerosFound rows (step3 cols s zerosFound) := by
  induction cols generalizing s rows zerosFound with
  | nil => exact .quiet fun _ none => absurd none List.not_mem_nil
  | cons col cols ih =>
    have colBound := bounds col List.mem_cons_self
    replace ih := @ih fun c member => bounds c (List.mem_cons_of_mem _ member)
    unfold step3
    split
    · rename_i hidden
      refine (ih stars covered zerosFound).skip fun row zero => ?_
      rw [zero.2.2.2.2] at hidden
      exact Bool.false_ne_true hidden
    · rename_i uncovered
      rw [Bool.not_eq_true] at uncovered
      dsimp only
      split
      · rename_i found
        have zero := openZero_of_search colBound uncovered found
        split
        · rename_i missed
          have unstarred := unstarred_of_search (s := s) (Nat.not_lt.mpr missed.ge)
          exact .starless _ [] _ _ ⟨rfl, rfl⟩ (covered.starless rowsFit colsFit zero unstarred)
        · rename_i hit
          have starred := star_of_search (s := s) zero.1 (Nat.lt_of_le_of_ne (search_le _ _) hit)
          have next := covered.cover rowsFit colsFit stars zero starred
          refine PassEnd.after_cover ?_ next (ih ?_ next true)
          · exact ⟨rfl, rfl⟩
          · exact stars
      · rename_i missed
        exact (ih stars covered zerosFound).skip (not_openZero_of_search missed)

end Movid.Munkres
