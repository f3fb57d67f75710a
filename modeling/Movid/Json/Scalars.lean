import Movid.Json.Parse

/-!
# Strings and numbers read back

A string is parsed as its characters but the control characters that `print_string_ptr` has no letter for, and an integer as itself.
-/

namespace Movid.Json

variable {P : Doubles}

/-- The characters that are printed. -/
def visible (s : Str) : Str := s.filter (escape · ≠ [])

/-- Integers of 32 bits are doubles, and the arithmetic on them is exact. -/
structure Doubles.Exact (P : Doubles) : Prop where
  shift : ∀ a k : Int, 0 ≤ a → 0 ≤ k → k ≤ 9 → 10 * a + k ≤ 2 ^ 31 → P.shift (P.ofInt a) k = P.ofInt (10 * a + k)
  positive : ∀ a : Int, 0 ≤ a → a ≤ 2 ^ 31 → P.scaled Bool.false (P.ofInt a) 0 = P.ofInt a
  negative : ∀ a : Int, 0 < a → a ≤ 2 ^ 31 → P.scaled Bool.true (P.ofInt a) 0 = P.ofInt (-a)
  toInt : ∀ n : Int32, P.toInt (P.ofInt n.toInt) = n
  whole : ∀ n : Int32, P.whole n (P.ofInt n.toInt) = Bool.true

/-! ### Strings -/

theorem inString_backslash : inString '\\' = Bool.true := by decide

theorem countLen_plain {c : Char} (inside : inString c = Bool.true) (other : c ≠ '\\') (ptr : Str) :
    countLen (c :: ptr) = (countLen ptr).map (1 + ·) := by
  rw [countLen.eq_def]
  simp only [inside, other, if_true, if_false]

theorem countLen_escaped (e : Char) (ptr : Str) : countLen ('\\' :: e :: ptr) = (countLen ptr).map (1 + ·) := by
  rw [countLen.eq_def]
  simp only [inString_backslash, if_true]

theorem unescape_plain {c : Char} (inside : inString c = Bool.true) (other : c ≠ '\\') (ptr : Str) :
    unescape (c :: ptr) = (unescape ptr).map fun (out, ptr) => (c :: out, ptr) := by
  rw [unescape.eq_def]
  simp only [inside, other, if_true, if_false]

theorem string_end (rest : Str) : countLen ('"' :: rest) = .ok 0 ∧ unescape ('"' :: rest) = .ok ([], '"' :: rest) := by
  have outside : inString '"' = Bool.false := by decide
  rw [countLen.eq_def, unescape.eq_def]
  simp only [outside, Bool.false_eq_true, if_false, and_self]

/-- What is escaped, and what comes back. -/
theorem escape_cases (c : Char) :
    (escape c = [c] ∧ inString c = Bool.true ∧ c ≠ '\\') ∨
      (∃ e, escape c = ['\\', e] ∧ ∀ ptr, unescape ('\\' :: e :: ptr) = (unescape ptr).map fun (out, ptr) => (c :: out, ptr)) ∨
      escape c = [] := by
  have back (e : Char) (ptr : Str) := unescape.eq_def ('\\' :: e :: ptr)
  simp only [inString_backslash, if_true] at back
  unfold escape
  split_ifs with plain backslash quote b f n r t
  · exact .inl ⟨rfl, by simp [inString, plain.1, plain.2.1], plain.2.2⟩
  · subst backslash
    exact .inr (.inl ⟨'\\', rfl, back '\\'⟩)
  · subst quote
    exact .inr (.inl ⟨'"', rfl, back '"'⟩)
  · exact .inr (.inl ⟨'b', rfl, fun ptr => b ▸ back 'b' ptr⟩)
  · exact .inr (.inl ⟨'f', rfl, fun ptr => f ▸ back 'f' ptr⟩)
  · exact .inr (.inl ⟨'n', rfl, fun ptr => n ▸ back 'n' ptr⟩)
  · exact .inr (.inl ⟨'r', rfl, fun ptr => r ▸ back 'r' ptr⟩)
  · exact .inr (.inl ⟨'t', rfl, fun ptr => t ▸ back 't' ptr⟩)
  · exact .inr (.inr rfl)

theorem visible_cons {c : Char} (kept : escape c ≠ []) (s : Str) : visible (c :: s) = c :: visible s :=
  List.filter_cons_of_pos (decide_eq_true kept)

theorem visible_cons_of_dropped {c : Char} (dropped : escape c = []) (s : Str) : visible (c :: s) = visible s :=
  List.filter_cons_of_neg (by simp [dropped])

theorem countLen_escape (s rest : Str) : countLen (s.flatMap escape ++ '"' :: rest) = .ok (visible s).length := by
  induction s with
  | nil => exact (string_end rest).1
  | cons c s ih =>
    rw [List.flatMap_cons, List.append_assoc]
    rcases escape_cases c with ⟨plain, inside, other⟩ | ⟨e, escaped, _⟩ | dropped
    · rw [plain, visible_cons (by simp [plain]), List.singleton_append, countLen_plain inside other, ih, List.length_cons, Nat.add_comm]
      rfl
    · rw [escaped, visible_cons (by simp [escaped]), List.cons_append, List.singleton_append, countLen_escaped, ih, List.length_cons,
        Nat.add_comm]
      rfl
    · rw [dropped, visible_cons_of_dropped dropped, List.nil_append, ih]

theorem unescape_escape (s rest : Str) : unescape (s.flatMap escape ++ '"' :: rest) = .ok (visible s, '"' :: rest) := by
  induction s with
  | nil => exact (string_end rest).2
  | cons c s ih =>
    rw [List.flatMap_cons, List.append_assoc]
    rcases escape_cases c with ⟨plain, inside, other⟩ | ⟨e, escaped, back⟩ | dropped
    · rw [plain, visible_cons (by simp [plain]), List.singleton_append, unescape_plain inside other, ih]
      rfl
    · rw [escaped, visible_cons (by simp [escaped]), List.cons_append, List.singleton_append, back, ih]
      rfl
    · rw [dropped, visible_cons_of_dropped dropped, List.nil_append, ih]

theorem nul_not_mem_visible (s : Str) : '\x00' ∉ visible s := by
  intro member
  have kept := of_decide_eq_true (List.mem_filter.mp member).2
  exact kept (by decide)

theorem parseString_escape (s rest : Str) : parseString ('"' :: (s.flatMap escape ++ '"' :: rest)) = .ok (visible s, rest) := by
  have whole : (visible s).takeWhile (· ≠ '\x00') = visible s :=
    List.takeWhile_eq_self_iff.mpr fun c member => decide_eq_true fun nul => nul_not_mem_visible s (nul ▸ member)
  unfold parseString
  simp only [first, Except.bind, List.tail_cons, countLen_escape, unescape_escape, whole, List.head?_cons]
  rw [if_neg (by decide), if_neg (Nat.lt_irrefl _), if_pos trivial]

/-! ### Numbers -/

/-- What may follow a number. -/
def Stops (rest : Str) : Prop := ∃ c tail, rest = c :: tail ∧ c.isDigit = Bool.false ∧ c ≠ '.' ∧ c ≠ 'e' ∧ c ≠ 'E'

theorem digitVal_of_isDigit {c : Char} (digit : c.isDigit = Bool.true) : digitVal c = ((c.toNat - '0'.toNat : Nat) : Int) ∧ digitVal c ≤ 9 := by
  obtain ⟨low, high⟩ := Char.isDigit_iff_toNat.mp digit
  have zero : '0'.toNat = 48 := rfl
  have nine : '9'.toNat = 57 := rfl
  unfold digitVal
  rw [if_pos (by omega), zero]
  omega

/-- The loop over the digits computes their value, which must not pass 2^31 for the sum to be exact. -/
theorem digits_exact (exact_ : P.Exact) {ds rest : Str} (isDigits : ∀ c ∈ ds, c.isDigit = Bool.true) (stops : Stops rest) {a : Nat}
    (small : Nat.ofDigitChars 10 ds a ≤ 2 ^ 31) : digits (P.ofInt a) (ds ++ rest) = .ok (P.ofInt (Nat.ofDigitChars 10 ds a : Nat), rest) := by
  induction ds generalizing a with
  | nil =>
    obtain ⟨c, tail, rfl, other, _⟩ := stops
    rw [List.nil_append, digits, other, if_neg Bool.false_ne_true, Nat.ofDigitChars_nil]
  | cons c ds ih =>
    have digit := isDigits c List.mem_cons_self
    obtain ⟨val, high⟩ := digitVal_of_isDigit digit
    rw [Nat.ofDigitChars_cons] at small ⊢
    have grows : ∀ (cs : Str) (n : Nat), n ≤ Nat.ofDigitChars 10 cs n := by
      intro cs n
      rw [Nat.ofDigitChars_eq_ofDigitChars_zero]
      have := Nat.le_mul_of_pos_left n (Nat.pow_pos (n := cs.length) (show 0 < 10 by decide))
      omega
    have step := grows ds (10 * a + (c.toNat - '0'.toNat))
    have shifted := exact_.shift a (digitVal c) (Int.natCast_nonneg a) (by omega) high (by omega)
    have sum : (10 * (a : Int) + digitVal c) = ((10 * a + (c.toNat - '0'.toNat) : Nat) : Int) := by
      rw [val]
      push_cast
      rfl
    rw [List.cons_append, digits, if_pos digit, shifted, sum]
    exact ih (fun d member => isDigits d (List.mem_cons_of_mem _ member)) small

/-- No number starts with a zero but zero itself. -/
theorem head_toDigits {n : Nat} (positive : 0 < n) : ∃ d ds, Nat.toDigits 10 n = d :: ds ∧ '1' ≤ d ∧ d ≤ '9' := by
  induction n using Nat.strong_induction_on with
  | _ n ih =>
    by_cases small : n < 10
    · have range : ∀ n < 10, 0 < n → '1' ≤ n.digitChar ∧ n.digitChar ≤ '9' := by decide
      exact ⟨n.digitChar, [], Nat.toDigits_of_lt_base small, range n small positive⟩
    · rw [Nat.toDigits_of_base_le (by decide) (by omega)]
      obtain ⟨d, ds, shape, low, high⟩ := ih (n / 10) (by omega) (by omega)
      exact ⟨d, ds ++ [(n % 10).digitChar], by rw [shape, List.cons_append], low, high⟩

theorem not_leading {c : Char} (other : c.isDigit = Bool.false) : ¬ ('1' ≤ c ∧ c ≤ '9') := by
  rintro ⟨low, high⟩
  have digit : c.isDigit = Bool.true := by
    rw [Char.isDigit_iff_toNat]
    have low' : '1'.toNat ≤ c.toNat := low
    have high' : c.toNat ≤ '9'.toNat := high
    have zero : '0'.toNat = 48 := rfl
    have one : '1'.toNat = 49 := rfl
    omega
  rw [digit] at other
  cases other

section

variable {rest : Str} (stops : Stops rest)

include stops

theorem whole_toDigits (exact_ : P.Exact) {k : Nat} (small : k ≤ 2 ^ 31) :
    whole (Nat.toDigits 10 k ++ rest) = .ok (P.ofInt (k : Nat), rest) := by
  rcases Nat.eq_zero_or_pos k with rfl | positive
  · obtain ⟨c, tail, rfl, other, _⟩ := stops
    rw [Nat.toDigits_zero]
    simp only [whole, List.singleton_append, first, Except.bind, if_true, List.tail_cons]
    rw [if_neg (not_leading other)]
    rfl
  · obtain ⟨d, ds, shape, low, high⟩ := head_toDigits positive
    have other : d ≠ '0' := by
      rintro rfl
      exact absurd low (by decide)
    have all := digits_exact exact_ (fun c (member : c ∈ Nat.toDigits 10 k) => Text.isDigit_of_mem_toDigits member) stops (a := 0)
      (by rw [Nat.ofDigitChars_ten_toDigits]; exact small)
    rw [Nat.ofDigitChars_ten_toDigits] at all
    rw [shape] at all ⊢
    simp only [whole, List.cons_append, first, Except.bind, other, if_false]
    rw [if_pos ⟨low, high⟩]
    exact all

theorem fractional_stops (n : P.Double) : fractional n rest = .ok (n, 0, rest) := by
  obtain ⟨c, tail, rfl, _, point, _⟩ := stops
  simp only [fractional, first, Except.bind, point, if_false]

theorem scientific_stops : scientific rest = .ok (0, rest) := by
  obtain ⟨c, tail, rfl, _, _, lower, upper⟩ := stops
  simp only [scientific, first, Except.bind, lower, upper, or_self, if_false]

theorem parseNumber_showInt (exact_ : P.Exact) (n : Int32) :
    parseNumber (Text.showInt n.toInt ++ rest) = .ok (.number n (P.ofInt n.toInt), rest) := by
  have low := n.le_toInt
  have high := n.toInt_lt
  have back : createNumber (P.ofInt n.toInt) = .number n (P.ofInt n.toInt) := by rw [createNumber, exact_.toInt]
  cases shape : n.toInt with
  | ofNat k =>
    obtain ⟨d, ds, head⟩ := List.exists_cons_of_ne_nil (Nat.toDigits_ne_nil (n := k) (b := 10))
    have digit : d.isDigit = Bool.true := Text.isDigit_of_mem_toDigits (n := k) (by rw [head]; exact List.mem_cons_self)
    have sign : d ≠ '-' := by
      rintro rfl
      cases digit
    have value : n.toInt = (k : Int) := shape
    have read := whole_toDigits stops exact_ (k := k) (by omega)
    have start : first (Nat.toDigits 10 k ++ rest) = .ok d := by rw [head]; rfl
    show parseNumber (Nat.toDigits 10 k ++ rest) = .ok (.number n (P.ofInt (k : Nat)), rest)
    simp only [parseNumber, start, Except.bind, sign, if_false, read, fractional_stops stops, scientific_stops stops, decide_false, Int.add_zero]
    rw [exact_.positive k (by omega) (by omega), ← value, back]
  | negSucc k =>
    have value : n.toInt = -((k + 1 : Nat) : Int) := shape
    have read := whole_toDigits stops exact_ (k := k + 1) (by omega)
    show parseNumber ('-' :: Nat.toDigits 10 (k + 1) ++ rest) = .ok (.number n (P.ofInt (Int.negSucc k)), rest)
    simp only [parseNumber, List.cons_append, first, Except.bind, if_true, List.tail_cons, read, fractional_stops stops, scientific_stops stops,
      decide_true, Int.add_zero]
    rw [exact_.negative (k + 1 : Nat) (by omega) (by omega), ← value, ← shape, back]

end

end Movid.Json
