import Movid.Lib.Lists
import Movid.Utils

/-!
# The tokenizer

`moUtils::tokenize` cuts the text off piece by piece. With a delimiter of one character that is an exact split.
-/

namespace Movid

namespace Utils

/-- `str.substr(pos)`, which throws beyond the end. -/
def substr (str : Str) (pos : Nat) : Option Str := if pos ≤ str.length then some (str.drop pos) else none

/-- The loop of `tokenize`. It gives `none` when `substr` throws or the fuel is used up. -/
def tokenizeLoop (delimiters : Str) : Nat → Str → List Str → Option (List Str)
  | 0, _, _ => none
  | fuel + 1, client, result =>
    if client = [] then some (result ++ [[]])
    else
      match findFirstOf client delimiters (some 0) with
      | some 0 => do
        let client ← substr client delimiters.length
        tokenizeLoop delimiters fuel client (result ++ [[]])
      | none => some (result ++ [client])
      | some dPos => do
        let rest ← substr client (dPos + delimiters.length)
        tokenizeLoop delimiters fuel rest (result ++ [client.take dPos])

/-- `moUtils::tokenize`. -/
def tokenizeBy (str delimiters : Str) : Option (List Str) := tokenizeLoop delimiters (str.length + 1) str []

example : tokenizeBy ",a,,b,".toList [','] = some ["".toList, "a".toList, "".toList, "b".toList, "".toList] := by decide
example : tokenizeBy "a,".toList [',', ' '] = none := by decide

/-- `moUtils::tokenize` for one delimiter: empty fields are kept. -/
def tokenize (str : Str) (delimiter : Char) : List Str := str.splitOn delimiter

variable {client : Str} {d : Char}

theorem contains_singleton (d : Char) : (fun c => [d].contains c) = (· == d) := by
  funext c
  simp [Bool.beq_eq_decide_eq]

theorem findFirstOf_singleton (client : Str) (d : Char) : findFirstOf client [d] (some 0) = client.findIdx? (· == d) := by
  rw [findFirstOf, Option.bind_some, List.drop_zero, contains_singleton]
  simp

/-- At the first delimiter the text splits into a token and a rest that is shorter. -/
theorem splitOn_of_findIdx? {i : Nat} (found : client.findIdx? (· == d) = some i) :
    ∃ rest, substr client (i + [d].length) = some rest ∧ client.splitOn d = client.take i :: rest.splitOn d ∧
      rest.length < client.length := by
  obtain ⟨c, rest, here, hit, inside, before⟩ := split_of_findIdx? found
  obtain rfl : c = d := by simpa using hit
  have clean : c ∉ client.take i := fun member => by simpa using before c member
  refine ⟨rest, ?_, ?_, ?_⟩
  · rw [substr, List.length_singleton, if_pos (show i + 1 ≤ client.length from inside), ← List.drop_drop, here]
    rfl
  · conv_lhs => rw [← List.take_append_drop i client, here]
    exact List.splitOn_append_cons_self_of_not_mem clean rest
  · have := congrArg List.length here
    rw [List.length_drop, List.length_cons] at this
    omega

theorem tokenizeLoop_eq (d : Char) (fuel : Nat) (client : Str) (enough : client.length < fuel) (result : List Str) :
    tokenizeLoop [d] fuel client result = some (result ++ client.splitOn d) := by
  induction fuel generalizing client result with
  | zero => exact absurd enough (Nat.not_lt_zero _)
  | succ fuel ih =>
    unfold tokenizeLoop
    rw [findFirstOf_singleton]
    split
    · rename_i empty
      rw [empty]
      rfl
    · cases found : client.findIdx? (· == d) with
      | none =>
        have clean : d ∉ client := fun member => by simpa using List.findIdx?_eq_none_iff.mp found d member
        rw [List.splitOn_eq_singleton clean]
      | some i =>
        obtain ⟨rest, next, shape, shorter⟩ := splitOn_of_findIdx? found
        have go : tokenizeLoop [d] fuel rest (result ++ [client.take i]) = some (result ++ client.splitOn d) := by
          rw [ih rest (by omega), shape, List.append_assoc, List.singleton_append]
        -- the two branches differ only in how they write the token
        cases i with
        | zero =>
          rw [Nat.zero_add] at next
          simp only [next, Option.bind_eq_bind, Option.bind_some]
          exact go
        | succ i =>
          simp only [next, Option.bind_eq_bind, Option.bind_some]
          exact go

theorem tokenizeBy_eq (str : Str) (d : Char) : tokenizeBy str [d] = some (tokenize str d) :=
  tokenizeLoop_eq d (str.length + 1) str (Nat.lt_succ_self _) []

/-- The tokens are the pieces between the delimiters. -/
theorem tokenize_splits (str : Str) (d : Char) :
    ∃ tokens, tokenizeBy str [d] = some tokens ∧ tokens.length = str.count d + 1 ∧ (∀ token ∈ tokens, d ∉ token) ∧
      [d].intercalate tokens = str :=
  ⟨str.splitOn d, tokenizeBy_eq str d, Lists.length_splitOn str d, fun _ => Text.not_mem_of_mem_splitOn, List.intercalate_splitOn d⟩

end Utils

/-! ### GUI feedback -/

/-- What `module_gui_feedback_cb` hands to the module, if anything. -/
def moduleGuiFeedbackCb {D : Type} (atof : Str → D) (s : Str) : Option (Option (Str × D × D)) :=
  if s = [] then some none
  else do
    match ← Utils.tokenizeBy s [';'] with
    | [type, x, y] => some (some (type, atof x, atof y))
    | _ => some none

/-- The module is called exactly for the texts with two semicolons. -/
theorem moduleGuiFeedbackCb_isSome {D : Type} (atof : Str → D) (s : Str) :
    ∃ feedback, moduleGuiFeedbackCb atof s = some feedback ∧ (feedback.isSome ↔ s.count ';' = 2) := by
  unfold moduleGuiFeedbackCb
  split
  · rename_i empty
    exact ⟨none, rfl, by simp [empty]⟩
  · have counted := Lists.length_splitOn s ';'
    rw [Utils.tokenizeBy_eq, Utils.tokenize]
    simp only [Option.bind_eq_bind, Option.bind_some]
    split
    · rename_i type x y tokens
      rw [tokens] at counted
      exact ⟨_, rfl, iff_of_true rfl (Nat.succ.inj counted).symm⟩
    · rename_i other
      refine ⟨none, rfl, iff_of_false nofun fun two => ?_⟩
      rw [two] at counted
      obtain ⟨type, x, y, tokens⟩ := List.length_eq_three.mp counted
      exact other type x y tokens

end Movid
