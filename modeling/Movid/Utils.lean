import Movid.Lib.Text

/-! The string helpers of `moUtils`, on strings given as lists of characters. -/

namespace Movid

abbrev Str := List Char

namespace Utils

/-- `str.find_first_of(delimiters, pos)`; `none` is `npos`, as argument and as result. -/
def findFirstOf (str delimiters : Str) (pos : Option Nat) : Option Nat :=
  pos.bind fun p => ((str.drop p).findIdx? (delimiters.contains ·)).map (· + p)

/-- `str.find_first_not_of(delimiters, pos)`. -/
def findFirstNotOf (str delimiters : Str) (pos : Option Nat) : Option Nat :=
  pos.bind fun p => ((str.drop p).findIdx? (!delimiters.contains ·)).map (· + p)

/-- `str.substr(lastPos, pos - lastPos)`; a length taken from `npos` reaches the end. -/
def field (str : Str) (lastPos : Nat) (pos : Option Nat) : Str :=
  (str.drop lastPos).take ((pos.getD str.length) - lastPos)

/-- The loop of `inList`. It gives `none` when `substr` throws or the fuel is used up. -/
def inListLoop (pattern str delimiters : Str) : Nat → Option Nat → Option Nat → Option Bool
  | 0, _, _ => none
  | fuel + 1, lastPos, pos =>
    if pos = none ∧ lastPos = none then some false
    else match lastPos with
      | none => none
      | some start =>
        if field str start pos = pattern then some true
        else
          let next := findFirstNotOf str delimiters pos
          inListLoop pattern str delimiters fuel next (findFirstOf str delimiters next)

def inList (pattern str delimiters : Str) : Option Bool :=
  let lastPos := findFirstNotOf str delimiters (some 0)
  inListLoop pattern str delimiters (str.length + 1) lastPos (findFirstOf str delimiters lastPos)

example : inList "IplImage8".toList "IplImage,IplImage8".toList [','] = some true := by decide
example : inList "volatile".toList "pos,volatileangle".toList [','] = some false := by decide

/-! ### What `inList` finds -/

/-- The non-empty pieces between the delimiters. -/
def fields (str delimiters : Str) : List Str := (str.splitOnP (delimiters.contains ·)).filter (· ≠ [])

variable {pattern str delimiters : Str}

theorem fields_append {c : Char} (cut : delimiters.contains c = true) (s t : Str) :
    fields (s ++ c :: t) delimiters = fields s delimiters ++ fields t delimiters := by
  rw [fields, List.splitOnP_append_cons s t cut, List.filter_append]
  rfl

theorem fields_of_clean {s : Str} (clean : ∀ c ∈ s, delimiters.contains c = false) :
    fields s delimiters = if s = [] then [] else [s] := by
  rw [fields, List.splitOnP_eq_singleton clean]
  by_cases empty : s = [] <;> simp [empty]

/-- The condition is a Boolean so that `decide` can settle it for a literal. -/
theorem fields_word {s : Str} (clean : s.any (delimiters.contains ·) = false) (word : s ≠ []) :
    fields s delimiters = [s] := by
  rw [fields_of_clean fun c member => ?_, if_neg word]
  exact Bool.eq_false_iff.mpr (List.any_eq_false.mp clean c member)

theorem fields_cons {c : Char} (cut : delimiters.contains c = true) (t : Str) :
    fields (c :: t) delimiters = fields t delimiters := fields_append cut [] t

theorem fields_skip {s : Str} (cut : ∀ c ∈ s, delimiters.contains c = true) (t : Str) :
    fields (s ++ t) delimiters = fields t delimiters := by
  induction s with
  | nil => rfl
  | cons c s ih =>
    rw [List.cons_append, fields_cons (cut c List.mem_cons_self)]
    exact ih fun x later => cut x (List.mem_cons_of_mem _ later)

theorem split_of_findIdx? {p : Char → Bool} {s : Str} {i : Nat} (h : s.findIdx? p = some i) :
    ∃ c t, s.drop i = c :: t ∧ p c = true ∧ i < s.length ∧ ∀ x ∈ s.take i, p x = false := by
  obtain ⟨inside, hit, before⟩ := List.findIdx?_eq_some_iff_getElem.mp h
  refine ⟨s[i], s.drop (i + 1), List.drop_eq_getElem_cons inside, hit, inside, fun x member => ?_⟩
  obtain ⟨n, small, rfl⟩ := List.mem_take_iff_getElem.mp member
  exact Bool.eq_false_iff.mpr (before n (by omega))

theorem fields_take {s : Str} {i : Nat} (h : s.findIdx? (delimiters.contains ·) = some i) (positive : 0 < i) :
    fields s delimiters = s.take i :: fields (s.drop i) delimiters := by
  obtain ⟨d, u, after, delimiter, short, clean⟩ := split_of_findIdx? h
  have nonempty : s.take i ≠ [] := by
    rw [ne_eq, List.take_eq_nil_iff]
    rintro (zero | empty)
    · omega
    · rw [empty] at short
      exact Nat.not_lt_zero _ short
  have shape : s = s.take i ++ d :: u := by rw [← after, List.take_append_drop]
  calc fields s delimiters
      = fields (s.take i ++ d :: u) delimiters := congrArg (fields · delimiters) shape
    _ = s.take i :: fields u delimiters := by
        rw [fields_append delimiter, fields_of_clean clean, if_neg nonempty, List.singleton_append]
    _ = s.take i :: fields (s.drop i) delimiters := by rw [after, fields_cons delimiter]

/-- The loop at the last field of the text. -/
theorem inListLoop_last {start fuel : Nat} (clean : ∀ c ∈ str.drop start, delimiters.contains c = false)
    (word : str.drop start ≠ []) (enough : 0 < fuel) :
    inListLoop pattern str delimiters (fuel + 1) (some start) (findFirstOf str delimiters (some start)) =
      some (decide (pattern ∈ fields (str.drop start) delimiters)) := by
  have stop : (str.drop start).findIdx? (delimiters.contains ·) = none := by
    simpa using clean
  have last : findFirstOf str delimiters (some start) = none := by
    rw [findFirstOf, Option.bind_some, stop]
    rfl
  have whole : field str start none = str.drop start := by
    rw [field, Option.getD_none, List.take_of_length_le]
    rw [List.length_drop]
  unfold inListLoop
  simp only [reduceCtorEq, and_false, if_false]
  rw [last, whole, fields_of_clean clean, if_neg word]
  split
  · rename_i found
    simp [found]
  · rename_i missed
    have final : inListLoop pattern str delimiters fuel none none = some false := by
      cases fuel with
      | zero => exact absurd enough (Nat.lt_irrefl _)
      | succ fuel => rfl
    simp only [findFirstNotOf, findFirstOf, Option.bind_none, final, List.mem_singleton, Ne.symm missed, decide_false]

/-- The loop at a field that a delimiter follows. -/
theorem inListLoop_next {start i fuel : Nat} (stop : (str.drop start).findIdx? (delimiters.contains ·) = some i)
    (positive : 0 < i)
    (more : inListLoop pattern str delimiters fuel (findFirstNotOf str delimiters (some (i + start)))
        (findFirstOf str delimiters (findFirstNotOf str delimiters (some (i + start)))) =
      some (decide (pattern ∈ fields (str.drop (i + start)) delimiters))) :
    inListLoop pattern str delimiters (fuel + 1) (some start) (findFirstOf str delimiters (some start)) =
      some (decide (pattern ∈ fields (str.drop start) delimiters)) := by
  have last : findFirstOf str delimiters (some start) = some (i + start) := by
    rw [findFirstOf, Option.bind_some, stop]
    rfl
  have piece : field str start (some (i + start)) = (str.drop start).take i := by
    rw [field, Option.getD_some, Nat.add_sub_cancel]
  have next : str.drop (i + start) = (str.drop start).drop i := by rw [Nat.add_comm, List.drop_drop]
  unfold inListLoop
  simp only [reduceCtorEq, and_false, if_false]
  rw [last, piece, fields_take stop positive]
  split
  · rename_i found
    simp [found]
  · rename_i missed
    rw [more, next]
    simp [Ne.symm missed]

theorem inListLoop_eq (fuel k : Nat) (enough : (str.drop k).length < fuel) :
    inListLoop pattern str delimiters fuel (findFirstNotOf str delimiters (some k))
        (findFirstOf str delimiters (findFirstNotOf str delimiters (some k))) =
      some (decide (pattern ∈ fields (str.drop k) delimiters)) := by
  induction fuel generalizing k with
  | zero => exact absurd enough (Nat.not_lt_zero _)
  | succ fuel ih =>
    cases start : (str.drop k).findIdx? (!delimiters.contains ·) with
    | none =>
      have cut : ∀ c ∈ str.drop k, delimiters.contains c = true := by simpa using List.findIdx?_eq_none_iff.mp start
      have nothing : fields (str.drop k) delimiters = [] := by
        rw [← List.append_nil (str.drop k), fields_skip cut]
        rfl
      have none_ : findFirstNotOf str delimiters (some k) = none := by
        rw [findFirstNotOf, Option.bind_some, start]
        rfl
      rw [none_, nothing]
      rfl
    | some j =>
      obtain ⟨c, t, here, hit, inside, before⟩ := split_of_findIdx? start
      have first : findFirstNotOf str delimiters (some k) = some (j + k) := by
        rw [findFirstNotOf, Option.bind_some, start]
        rfl
      have rest : str.drop (j + k) = c :: t := by rw [Nat.add_comm, ← List.drop_drop, here]
      have same : fields (str.drop k) delimiters = fields (str.drop (j + k)) delimiters := by
        rw [← List.take_append_drop j (str.drop k), here, rest]
        exact fields_skip (fun x member => by simpa using before x member) _
      have shorter : (c :: t).length ≤ (str.drop k).length := by
        rw [← here, List.length_drop]
        omega
      rw [List.length_cons] at shorter
      rw [first, same]
      cases stop : (c :: t).findIdx? (delimiters.contains ·) with
      | none =>
        apply inListLoop_last
        · rw [rest]
          simpa using List.findIdx?_eq_none_iff.mp stop
        · rw [rest]
          exact List.cons_ne_nil c t
        · omega
      | some i =>
        obtain ⟨d, u, after, delimiter, _⟩ := split_of_findIdx? stop
        have positive : 0 < i := by
          rcases Nat.eq_zero_or_pos i with rfl | positive
          · rw [List.drop_zero, List.cons.injEq] at after
            rw [after.1, delimiter] at hit
            cases hit
          · exact positive
        have next : str.drop (i + (j + k)) = (c :: t).drop i := by rw [Nat.add_comm, ← List.drop_drop, rest]
        refine inListLoop_next (by rw [rest]; exact stop) positive (ih (i + (j + k)) ?_)
        rw [next, List.length_drop, List.length_cons]
        omega

theorem inList_eq (pattern str delimiters : Str) :
    inList pattern str delimiters = some (decide (pattern ∈ fields str delimiters)) :=
  inListLoop_eq (str.length + 1) 0 (Nat.lt_succ_self _)

end Utils

end Movid
