import Mathlib.Data.List.TakeWhile
import Mathlib.Order.Lattice
import Mathlib.Tactic.Common

/-!
# Words, lines and decimal numbers

Character lists cut at white space and at line ends, and integers written and read in
base ten, as the C and C++ standard libraries do it in the "C" locale.
-/

namespace Text

def isSpace (c : Char) : Bool :=
  c == ' ' || c == '\t' || c == '\n' || c == '\x0b' || c == '\x0c' || c == '\r'

/-- What `operator>>` reads from a stream, word after word. -/
def words (s : List Char) : List (List Char) :=
  (s.splitOnP isSpace).filter (· ≠ [])

/-- What `getline` reads from a file, line after line. The last line may be empty. -/
def lines (s : List Char) : List (List Char) := s.splitOn '\n'

def NoSpace (s : List Char) : Prop := ∀ c ∈ s, isSpace c = false

-- Not by a search through all characters.
instance (s : List Char) : Decidable (NoSpace s) := List.decidableBAll (fun c => isSpace c = false) s

def Token (s : List Char) : Prop := s ≠ [] ∧ NoSpace s

instance (s : List Char) : Decidable (Token s) := inferInstanceAs (Decidable (_ ∧ _))

/-! ### Words -/

@[simp] theorem words_nil : words [] = [] := rfl

theorem words_append_space {c : Char} (space : isSpace c = true) (s t : List Char) :
    words (s ++ c :: t) = words s ++ words t := by
  rw [words, List.splitOnP_append_cons s t space, List.filter_append]
  rfl

theorem words_of_noSpace {s : List Char} (clean : NoSpace s) :
    words s = if s = [] then [] else [s] := by
  rw [words, List.splitOnP_eq_singleton clean]
  by_cases empty : s = [] <;> simp [empty]

theorem Token.words_eq {s : List Char} (token : Token s) : words s = [s] := by
  rw [words_of_noSpace token.2, if_neg token.1]

theorem Token.words_cons {s : List Char} (token : Token s) {c : Char} (space : isSpace c = true)
    (t : List Char) : words (s ++ c :: t) = s :: words t := by
  rw [words_append_space space, token.words_eq, List.singleton_append]

theorem splitOnP_pieces (p : Char → Bool) (s : List Char) :
    ∀ piece ∈ s.splitOnP p, ∀ c ∈ piece, p c = false := by
  induction s with
  | nil => simp
  | cons x s ih =>
    rw [List.splitOnP_cons_eq_if_modifyHead]
    split
    · simpa using ih
    · rename_i miss
      cases rest : s.splitOnP p with
      | nil => exact absurd rest (List.splitOnP_ne_nil p s)
      | cons head tail =>
        rw [rest] at ih
        simp only [List.modifyHead_cons, List.mem_cons, forall_eq_or_imp] at ih ⊢
        exact ⟨⟨by simpa using miss, ih.1⟩, ih.2⟩

theorem not_mem_of_mem_splitOn {s piece : List Char} {d : Char} (member : piece ∈ s.splitOn d) : d ∉ piece := by
  intro inside
  have clean := splitOnP_pieces (· == d) s piece member d inside
  simp at clean

theorem token_of_mem_words {s w : List Char} (member : w ∈ words s) : Token w := by
  obtain ⟨piece, present⟩ := List.mem_filter.mp member
  exact ⟨by simpa using present, splitOnP_pieces isSpace s w piece⟩

/-! ### Lines -/

theorem lines_append (s t : List Char) : lines (s ++ '\n' :: t) = lines s ++ lines t :=
  List.splitOn_append_cons_self s t

theorem lines_of_not_mem {s : List Char} (clean : '\n' ∉ s) : lines s = [s] :=
  List.splitOn_eq_singleton clean

theorem newline_not_mem_of_mem_lines {s l : List Char} (member : l ∈ lines s) : '\n' ∉ l := not_mem_of_mem_splitOn member

theorem lines_append_of_not_mem {s : List Char} (clean : '\n' ∉ s) (t : List Char) :
    lines (s ++ t) = (lines t).modifyHead (s ++ ·) := by
  induction s with
  | nil => cases shape : lines t <;> simp [shape]
  | cons c s ih =>
    obtain ⟨other, clean⟩ := not_or.mp (mt List.mem_cons.mpr clean)
    have first : lines (c :: (s ++ t)) = (lines (s ++ t)).modifyHead (c :: ·) := by
      unfold lines
      rw [List.splitOn_cons_eq_if_modifyHead, if_neg (by simpa using Ne.symm other)]
    rw [List.cons_append, first, ih clean]
    cases lines t <;> rfl

/-- A text whose lines all end in a line feed, with nothing after the last one. -/
def unlines (ls : List (List Char)) : List Char := ls.flatMap (· ++ ['\n'])

@[simp] theorem unlines_nil : unlines [] = [] := rfl

@[simp] theorem unlines_cons (l : List Char) (ls : List (List Char)) :
    unlines (l :: ls) = l ++ '\n' :: unlines ls := by simp [unlines]

@[simp] theorem unlines_append (ls ms : List (List Char)) :
    unlines (ls ++ ms) = unlines ls ++ unlines ms := by simp [unlines]

theorem lines_unlines_append (ls : List (List Char)) (t : List Char) :
    lines (unlines ls ++ t) = ls.flatMap lines ++ lines t := by
  induction ls with
  | nil => rfl
  | cons l ls ih =>
    rw [unlines_cons, List.append_assoc, List.cons_append, lines_append, ih, List.flatMap_cons,
      List.append_assoc]

theorem lines_unlines (ls : List (List Char)) : lines (unlines ls) = ls.flatMap lines ++ [[]] := by
  simpa [lines] using lines_unlines_append ls []

theorem flatMap_lines {ls : List (List Char)} (clean : ∀ l ∈ ls, '\n' ∉ l) :
    ls.flatMap lines = ls := by
  induction ls with
  | nil => rfl
  | cons l ls ih =>
    rw [List.flatMap_cons, lines_of_not_mem (clean l List.mem_cons_self),
      ih (fun l member => clean l (List.mem_cons_of_mem _ member)), List.singleton_append]

theorem Token.newline_not_mem {s : List Char} (token : Token s) : '\n' ∉ s := by
  intro newline
  exact absurd (token.2 _ newline) (by decide)

/-! ### Decimal integers -/

/-- `%d`. -/
def showInt : Int → List Char
  | .ofNat n => Nat.toDigits 10 n
  | .negSucc n => '-' :: Nat.toDigits 10 (n + 1)

/-- `strtol` stops at the limits of a 64-bit `long`. -/
def clampLong (n : Int) : Int := max (-0x8000000000000000) (min n 0x7fffffffffffffff)

/-- The optional sign and the digits that `strtol` reads in base ten. -/
def readInt (s : List Char) : Int :=
  match s.dropWhile isSpace with
  | '-' :: t => -(Nat.ofDigitChars 10 (t.takeWhile Char.isDigit) 0 : Nat)
  | '+' :: t => (Nat.ofDigitChars 10 (t.takeWhile Char.isDigit) 0 : Nat)
  | t => (Nat.ofDigitChars 10 (t.takeWhile Char.isDigit) 0 : Nat)

/-- `atoi`: the `long` that `strtol` returns, cut to 32 bits. -/
def atoi (s : List Char) : Int32 := Int32.ofInt (clampLong (readInt s))

theorem isSpace_of_isDigit {c : Char} (digit : c.isDigit = true) : isSpace c = false := by
  by_contra space
  simp only [isSpace, Bool.not_eq_false, Bool.or_eq_true, beq_iff_eq] at space
  rcases space with ((((h | h) | h) | h) | h) | h <;> subst h <;> exact absurd digit (by decide)

theorem isDigit_of_mem_toDigits {n : Nat} {c : Char} (member : c ∈ Nat.toDigits 10 n) :
    c.isDigit = true := Nat.isDigit_of_mem_toDigits (by decide) (by decide) member

theorem takeWhile_toDigits (n : Nat) : (Nat.toDigits 10 n).takeWhile Char.isDigit = Nat.toDigits 10 n :=
  List.takeWhile_eq_self_iff.mpr fun _ member => isDigit_of_mem_toDigits member

theorem showInt_chars (n : Int) : ∀ c ∈ showInt n, c = '-' ∨ c.isDigit = true := by
  intro c member
  cases n with
  | ofNat n => exact Or.inr (isDigit_of_mem_toDigits member)
  | negSucc n => exact (List.mem_cons.mp member).imp_right isDigit_of_mem_toDigits

theorem showInt_noSpace (n : Int) : NoSpace (showInt n) := by
  intro c member
  rcases showInt_chars n c member with rfl | digit
  · rfl
  · exact isSpace_of_isDigit digit

theorem showInt_token (n : Int) : Token (showInt n) := by
  refine ⟨?_, showInt_noSpace n⟩
  cases n with
  | ofNat n => exact Nat.toDigits_ne_nil
  | negSucc n => simp [showInt]

theorem readInt_toDigits (n : Nat) : readInt (Nat.toDigits 10 n) = n := by
  obtain ⟨d, ds, shape⟩ := List.exists_cons_of_ne_nil (Nat.toDigits_ne_nil (n := n) (b := 10))
  have digit : d.isDigit = true := isDigit_of_mem_toDigits (n := n) (by rw [shape]; exact List.mem_cons_self)
  have kept : (Nat.toDigits 10 n).dropWhile isSpace = Nat.toDigits 10 n := by
    rw [shape, List.dropWhile_cons_of_neg (by simp [isSpace_of_isDigit digit])]
  have value : Nat.ofDigitChars 10 ((Nat.toDigits 10 n).takeWhile Char.isDigit) 0 = n := by
    rw [takeWhile_toDigits, Nat.ofDigitChars_toDigits (by decide) (by decide)]
  unfold readInt
  rw [kept]
  split
  · rename_i t sign
    obtain ⟨rfl, -⟩ := List.cons.inj (shape.symm.trans sign)
    exact absurd digit (by decide)
  · rename_i t sign
    obtain ⟨rfl, -⟩ := List.cons.inj (shape.symm.trans sign)
    exact absurd digit (by decide)
  · rw [value]

theorem readInt_showInt (n : Int) : readInt (showInt n) = n := by
  cases n with
  | ofNat n => exact readInt_toDigits n
  | negSucc n =>
    have kept : ('-' :: Nat.toDigits 10 (n + 1)).dropWhile isSpace = '-' :: Nat.toDigits 10 (n + 1) :=
      List.dropWhile_cons_of_neg (by decide)
    simp only [readInt, showInt, kept, takeWhile_toDigits]
    rw [Nat.ofDigitChars_toDigits (by decide) (by decide)]
    rfl

theorem atoi_showInt (v : Int32) : atoi (showInt v.toInt) = v := by
  have low := v.le_toInt
  have high := v.toInt_lt
  rw [atoi, readInt_showInt, clampLong, min_eq_left (by omega), max_eq_right (by omega)]
  exact Int32.ofInt_toInt v

theorem atoi_showInt_of_bounds {n : Int} (low : -0x80000000 ≤ n) (high : n < 0x80000000) :
    (atoi (showInt n)).toInt = n := by
  rw [atoi, readInt_showInt, clampLong, min_eq_left (by omega), max_eq_right (by omega)]
  exact Int32.toInt_ofInt_of_le low high

example : atoi " -12;".toList = -12 := by decide

end Text
