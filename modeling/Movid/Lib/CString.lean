import Mathlib.Data.List.TakeWhile
import Mathlib.Data.List.Infix
import Mathlib.Tactic.Common

/-!
# Strings in memory

A `char *` is an offset into a block of characters, and the string it points to ends before the first NUL. What leaves the block is not
defined.
-/

namespace CString

abbrev nul : Char := '\x00'

/-- The characters of a string: none of them is NUL. -/
structure Chars where
  chars : List Char
  noNul : nul ∉ chars

abbrev Block := List Char

/-- What a pointer to `p` reads. It is `none` when the block ends before a NUL. -/
def read (block : Block) (p : Nat) : Option (List Char) :=
  if nul ∈ block.drop p then some ((block.drop p).takeWhile (· ≠ nul)) else none

def strdup (s : Chars) : Block := s.chars ++ [nul]

/-- The offset of the first occurrence of `needle`. -/
def strstr : List Char → List Char → Option Nat
  | s, needle =>
    if needle.isPrefixOf s then some 0
    else
      match s with
      | [] => none
      | _ :: rest => (strstr rest needle).map (· + 1)

/-- The offset of the first character that is one of `accept`. -/
def strpbrk (s accept : List Char) : Option Nat := s.findIdx? (accept.contains ·)

/-- `snprintf` of a text to a buffer of `size` characters. -/
def snprintf (size : Nat) (text : List Char) : List Char := text.take (size - 1)

/-- The `strsep` of the BSD library on a pointer that may be NULL: the block with the delimiter overwritten, the pointer to the rest, and
the pointer to the token. -/
def strsep (block : Block) (stringp : Option Nat) (delim : List Char) : Option (Block × Option Nat × Option Nat) :=
  match stringp with
  | none => some (block, none, none)
  | some s =>
    (read block s).map fun str =>
      match strpbrk str delim with
      | none => (block, none, some s)
      | some e => (block.set (s + e) nul, some (s + e + 1), some s)

/-! ### Reading -/

theorem read_append {s : List Char} (clean : nul ∉ s) (rest : List Char) {p : Nat} (inside : p ≤ s.length) :
    read (s ++ nul :: rest) p = some (s.drop p) := by
  have shape : (s ++ nul :: rest).drop p = s.drop p ++ nul :: rest := List.drop_append_of_le_length inside
  have before : ∀ x ∈ s.drop p, decide (x ≠ nul) = true := fun x member =>
    decide_eq_true fun same => clean (same ▸ List.mem_of_mem_drop member)
  unfold read
  rw [shape, if_pos (List.mem_append_right _ List.mem_cons_self), List.takeWhile_append_of_pos before]
  simp

theorem read_strdup (s : Chars) : read (strdup s) 0 = some s.chars := read_append s.noNul [] (Nat.zero_le _)

/-! ### Searching -/

theorem strstr_zero_iff {s needle : List Char} : strstr s needle = some 0 ↔ needle <+: s := by
  rw [← List.isPrefixOf_iff_prefix]
  unfold strstr
  split
  · rename_i here
    exact iff_of_true rfl here
  · rename_i other
    refine iff_of_false ?_ other
    cases s with
    | nil => exact nofun
    | cons c rest =>
      intro found
      obtain ⟨n, -, later⟩ := Option.map_eq_some_iff.mp found
      exact absurd later (Nat.succ_ne_zero n)

theorem strstr_none_iff {s needle : List Char} : strstr s needle = none ↔ ¬ needle <:+: s := by
  induction s with
  | nil =>
    unfold strstr
    by_cases here : needle = []
    · simp [here]
    · have other : needle.isPrefixOf [] = false := by
        rw [Bool.eq_false_iff, ne_eq, List.isPrefixOf_iff_prefix, List.prefix_nil]
        exact here
      simp [other, here]
  | cons c rest ih =>
    rw [List.infix_cons_iff, not_or, ← ih, ← List.isPrefixOf_iff_prefix]
    conv_lhs => unfold strstr
    cases needle.isPrefixOf (c :: rest) <;> simp

/-! ### Cutting -/

/-- The block after `strsep` holds the token, and the pointer to it does not move. -/
theorem strsep_strdup (s : Chars) (delim : List Char) :
    ∃ rest next, strsep (strdup s) (some 0) delim = some (s.chars.takeWhile (fun c => !delim.contains c) ++ nul :: rest, next, some 0) := by
  unfold strsep
  simp only [read_strdup, Option.map_some]
  cases found : strpbrk s.chars delim with
  | none =>
    have whole : s.chars.takeWhile (fun c => !delim.contains c) = s.chars := by
      rw [List.takeWhile_eq_self_iff]
      intro c member
      rw [List.findIdx?_eq_none_iff.mp found c member]
      rfl
    rw [whole]
    exact ⟨[], none, rfl⟩
  | some e =>
    obtain ⟨inside, index⟩ := List.findIdx?_eq_some_iff_findIdx_eq.mp found
    have token : s.chars.takeWhile (fun c => !delim.contains c) = s.chars.take e := by
      rw [List.takeWhile_eq_take_findIdx_not]
      simp only [Bool.not_not]
      rw [index]
    have cut : (strdup s).set (0 + e) nul = s.chars.take e ++ nul :: (strdup s).drop (e + 1) := by
      rw [Nat.zero_add, strdup, List.set_eq_take_append_cons_drop, if_pos (by simp; omega), List.take_append_of_le_length inside.le]
    rw [token]
    exact ⟨(strdup s).drop (e + 1), some (0 + e + 1), by rw [← cut]⟩

end CString
