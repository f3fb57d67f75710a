import Movid.Lib.CString
import Movid.Lib.Lists
import Movid.Utils

/-!
# The files of the GUI

`web_file` opens what is named after `/gui/` in the URI, below the directory of the GUI and without the query.
-/

namespace Movid.Server

open CString (Chars nul)

/-- What `web_file` does before it reads the file. -/
inductive Served where
  | error (code : Nat) (reason : Str)
  | opens (filename : Str)
  deriving DecidableEq

/-- `web_file` up to `fopen`, when there is memory for the copy of the URI. A pointer that leaves its string gives `none`. -/
def webFile (guidir uri : Chars) : Option Served :=
  if CString.strstr uri.chars "/gui/".toList ≠ some 0 then some (.error 404 "Not found".toList)
  else if CString.strstr uri.chars "..".toList ≠ none then some (.error 403 "Security error".toList)
  else do
    let (block, _, baseuri) ← CString.strsep (CString.strdup uri) (some 0) "?".toList
    let baseuri ← baseuri
    let name ← CString.read block (baseuri + "/gui/".length)
    some (.opens (CString.snprintf 256 (guidir.chars ++ '/' :: name)))

/-- The part of the URI after the prefix and before the query. -/
structure Named (uri s : Str) : Prop where
  shape : ∃ query, uri = "/gui/".toList ++ s ++ query ∧ (query = [] ∨ query.head? = some '?')
  noQuery : '?' ∉ s
  noParent : ¬ "..".toList <:+: s

variable {guidir uri : Chars}

/-- Past both tests the handler opens the part that is named. -/
theorem webFile_eq {t : Str} (shape : uri.chars = "/gui/".toList ++ t) (safe : ¬ "..".toList <:+: uri.chars) :
    webFile guidir uri = some (.opens ((guidir.chars ++ '/' :: t.takeWhile (· ≠ '?')).take 255)) := by
  have start : CString.strstr uri.chars "/gui/".toList = some 0 := CString.strstr_zero_iff.mpr ⟨t, shape.symm⟩
  have token : uri.chars.takeWhile (fun c => !"?".toList.contains c) = "/gui/".toList ++ t.takeWhile (· ≠ '?') := by
    have question : (fun c => !"?".toList.contains c) = fun c : Char => decide (c ≠ '?') := by
      funext c
      simp
    rw [shape, question]
    rfl
  obtain ⟨rest, next, cut⟩ := CString.strsep_strdup uri "?".toList
  have clean : nul ∉ "/gui/".toList ++ t.takeWhile (· ≠ '?') := fun member =>
    uri.noNul ((List.takeWhile_sublist _).mem (token ▸ member))
  have inside : 0 + "/gui/".length ≤ ("/gui/".toList ++ t.takeWhile (· ≠ '?')).length := by
    rw [List.length_append]
    exact Nat.le_add_right _ _
  unfold webFile
  rw [if_neg (not_not.mpr start), if_neg (not_not.mpr (CString.strstr_none_iff.mpr safe)), cut, token]
  simp only [Option.bind_eq_bind, Option.bind_some]
  rw [CString.read_append clean rest inside]
  rfl

/-- What the tests let through. -/
theorem webFile_cases (guidir uri : Chars) :
    (∃ code reason, webFile guidir uri = some (.error code reason)) ∨
      ∃ t, uri.chars = "/gui/".toList ++ t ∧ ¬ "..".toList <:+: uri.chars ∧
        webFile guidir uri = some (.opens ((guidir.chars ++ '/' :: t.takeWhile (· ≠ '?')).take 255)) := by
  by_cases start : CString.strstr uri.chars "/gui/".toList = some 0
  · obtain ⟨t, shape⟩ := CString.strstr_zero_iff.mp start
    by_cases safe : CString.strstr uri.chars "..".toList = none
    · have clean := CString.strstr_none_iff.mp safe
      exact Or.inr ⟨t, shape.symm, clean, webFile_eq shape.symm clean⟩
    · refine Or.inl ⟨403, "Security error".toList, ?_⟩
      rw [webFile, if_neg (not_not.mpr start), if_pos safe]
  · exact Or.inl ⟨404, "Not found".toList, if_pos start⟩

theorem named_takeWhile {t : Str} (shape : uri.chars = "/gui/".toList ++ t) (safe : ¬ "..".toList <:+: uri.chars) :
    Named uri.chars (t.takeWhile (· ≠ '?')) where
  shape := by
    refine ⟨t.dropWhile (· ≠ '?'), by rw [shape, List.append_assoc, List.takeWhile_append_dropWhile], ?_⟩
    cases rest : t.dropWhile (· ≠ '?') with
    | nil => exact Or.inl rfl
    | cons c query =>
      have first := List.head?_dropWhile_not (· ≠ '?') t
      rw [rest] at first
      exact Or.inr (by simpa using first)
  noQuery member := by
    simpa using List.mem_takeWhile_imp member
  noParent inside := safe <| by
    rw [shape]
    exact (inside.trans (List.takeWhile_prefix _).isInfix).trans (List.suffix_append _ _).isInfix

/-- No component below the directory is the parent. -/
theorem parent_not_mem {s : Str} (dir : Str) (size : Nat) (safe : ¬ "..".toList <:+: s) :
    "..".toList ∉ (((dir ++ '/' :: s).take size).drop dir.length).splitOn '/' := by
  intro member
  have inside := Lists.infix_of_mem_splitOn member
  rw [List.drop_take, List.drop_left] at inside
  rcases List.infix_cons_iff.mp (inside.trans (List.take_prefix _ _).isInfix) with first | later
  · exact absurd (List.cons_prefix_cons.mp first).1 (by decide)
  · exact safe later

/-- Every pointer of the handler stays in the copy of the URI, and what is opened is the named part below the directory. -/
theorem opens_below_gui (guidir uri : Chars) :
    (webFile guidir uri).isSome ∧
      ∀ filename, webFile guidir uri = some (.opens filename) →
        ∃ s, s <:+: uri.chars ∧ Named uri.chars s ∧ filename = (guidir.chars ++ '/' :: s).take 255 ∧
          "..".toList ∉ (filename.drop guidir.chars.length).splitOn '/' := by
  rcases webFile_cases guidir uri with ⟨code, reason, refused⟩ | ⟨t, shape, safe, opened⟩
  · refine ⟨by rw [refused]; rfl, fun filename opened => ?_⟩
    rw [refused] at opened
    cases opened
  · refine ⟨by rw [opened]; rfl, fun filename same => ?_⟩
    rw [opened] at same
    cases same
    have named := named_takeWhile shape safe
    obtain ⟨query, whole, -⟩ := named.shape
    refine ⟨_, ⟨_, query, whole.symm⟩, named, rfl, parent_not_mem _ _ named.noParent⟩

end Movid.Server
