import Movid.Json.Print
import Movid.Lib.Failing

/-!
# The buffers of the printer

The sizes that are computed before a buffer is allocated are enough for what is written to it, except for numbers: a double that `%f`, `%e` or
`%.0f` makes 64 characters of, or more, is written past its buffer.
-/

namespace Movid.Json

open Failing

variable {P : Doubles}

mutual

/-- All numbers have room. -/
def Item.Fits : Item P → Prop
  | .number valueint valuedouble => P.whole valueint valuedouble = Bool.true ∨ (P.text valuedouble).length < 64
  | .array child => FitItems child
  | .object child => FitMembers child
  | _ => True

def FitItems : List (Item P) → Prop
  | [] => True
  | item :: items => item.Fits ∧ FitItems items

def FitMembers : List (Str × Item P) → Prop
  | [] => True
  | (_, item) :: items => item.Fits ∧ FitMembers items

end

/-! ### Sizes -/

theorem write_of_le {size : Nat} {text : Str} (room : text.length + 1 ≤ size) : write size text = .ok text := if_pos room

theorem length_escape (c : Char) : (escape c).length ≤ if c.toNat < 32 ∨ c = '"' ∨ c = '\\' then 2 else 1 := by
  unfold escape
  split_ifs with plain special
  · simp
  · simp
  all_goals simp_all

theorem length_flatMap_escape (s : Str) : (s.flatMap escape).length ≤ escapedLen s := by
  induction s with
  | nil => exact Nat.le_refl 0
  | cons c s ih =>
    have own := length_escape c
    rw [List.flatMap_cons, List.length_append, escapedLen, List.map_cons, List.sum_cons]
    exact Nat.add_le_add own ih

theorem printStringPtr_ok (s : Str) : printStringPtr s = .ok ('"' :: (s.flatMap escape ++ ['"'])) := by
  have room := length_flatMap_escape s
  exact write_of_le (by rw [List.length_cons, List.length_append, List.length_singleton]; omega)

theorem length_showInt (n : Int32) : (Text.showInt n.toInt).length ≤ 11 := by
  have low := n.le_toInt
  have high := n.toInt_lt
  have digits {k : Nat} (small : k < 10 ^ 10) : (Nat.toDigits 10 k).length ≤ 10 :=
    (Nat.length_toDigits_le_iff (by decide) (by decide)).mpr small
  cases shape : n.toInt with
  | ofNat k =>
    have value : n.toInt = (k : Int) := shape
    have short := digits (k := k) (by omega)
    show (Nat.toDigits 10 k).length ≤ 11
    omega
  | negSucc k =>
    have short := digits (k := k + 1) (by omega)
    show (Nat.toDigits 10 (k + 1)).length + 1 ≤ 11
    omega

theorem printNumber_ok (valueint : Int32) (valuedouble : P.Double) :
    (∃ text, printNumber valueint valuedouble = .ok text) ↔ P.whole valueint valuedouble = Bool.true ∨ (P.text valuedouble).length < 64 := by
  have short := length_showInt valueint
  unfold printNumber
  split
  · rename_i whole
    exact ⟨fun _ => .inl whole, fun _ => ⟨_, write_of_le (by omega)⟩⟩
  · rename_i other
    constructor
    · rintro ⟨text, written⟩
      unfold write at written
      split_ifs at written with room
      exact .inr room
    · rintro (whole | room)
      · exact absurd whole other
      · exact ⟨_, write_of_le room⟩

theorem length_joinEntries (fmt : Bool) (entries : List Str) :
    (joinEntries fmt entries).length ≤ (entries.map (·.length + 2 + fmt.toNat)).sum := by
  induction entries with
  | nil => exact Nat.le_refl 0
  | cons entry entries ih =>
    rw [List.map_cons, List.sum_cons]
    cases entries with
    | nil =>
      show entry.length ≤ _
      omega
    | cons next entries =>
      have space : (if fmt then [' '] else []).length = fmt.toNat := by cases fmt <;> rfl
      show (entry ++ ',' :: ((if fmt then [' '] else []) ++ joinEntries fmt (next :: entries))).length ≤ _
      rw [List.length_append, List.length_cons, List.length_append, space]
      omega

theorem length_joinMembers (fmt : Bool) (depth : Nat) (members : List (Str × Str)) :
    (joinMembers fmt depth members).length ≤
      (members.map fun (name, entry) => entry.length + name.length + 2 + if fmt then 2 + depth else 0).sum := by
  induction members with
  | nil => exact Nat.le_refl 0
  | cons member members ih =>
    obtain ⟨name, entry⟩ := member
    have comma : (if members.isEmpty then [] else [',']).length ≤ 1 := by split <;> simp
    rw [joinMembers, List.map_cons, List.sum_cons]
    simp only [List.length_append, List.length_cons]
    cases fmt with
    | false => simp only [Bool.false_eq_true, if_false, List.length_nil] at ih ⊢; omega
    | true => simp only [if_true, List.length_replicate, List.length_singleton] at ih ⊢; omega

/-! ### Values -/

mutual

theorem printValue_ok (fmt : Bool) (item : Item P) (depth : Nat) : (∃ text, printValue fmt item depth = .ok text) ↔ item.Fits := by
  cases item with
  | null => exact ⟨fun _ => trivial, fun _ => ⟨_, rfl⟩⟩
  | false => exact ⟨fun _ => trivial, fun _ => ⟨_, rfl⟩⟩
  | true => exact ⟨fun _ => trivial, fun _ => ⟨_, rfl⟩⟩
  | number valueint valuedouble => exact printNumber_ok valueint valuedouble
  | string s => exact ⟨fun _ => trivial, fun _ => ⟨_, printStringPtr_ok s⟩⟩
  | array child =>
    rw [printValue, bind_isOk _ fun entries _ => ⟨_, write_of_le ?_⟩]
    · exact printEntries_ok fmt child (depth + 1)
    · have short := length_joinEntries fmt entries
      rw [List.length_cons, List.length_append, List.length_singleton, arrayLen]
      omega
  | object child =>
    rw [printValue, bind_isOk _ fun members _ => ⟨_, write_of_le ?_⟩]
    · exact printMembers_ok fmt child (depth + 1)
    · have short := length_joinMembers fmt (depth + 1) members
      simp only [List.length_cons, List.length_append, List.length_nil, objectLen]
      cases fmt with
      | false => simp only [Bool.false_eq_true, if_false, List.length_nil] at short ⊢; omega
      | true => simp only [if_true, List.length_replicate, List.length_singleton] at short ⊢; omega

theorem printEntries_ok (fmt : Bool) (items : List (Item P)) (depth : Nat) : (∃ entries, printEntries fmt items depth = .ok entries) ↔ FitItems items := by
  cases items with
  | nil => exact ⟨fun _ => trivial, fun _ => ⟨_, rfl⟩⟩
  | cons item items =>
    rw [printEntries, bind_isOk_and, printValue_ok fmt item depth, printEntries_ok fmt items depth]
    rfl

theorem printMembers_ok (fmt : Bool) (items : List (Str × Item P)) (depth : Nat) :
    (∃ members, printMembers fmt items depth = .ok members) ↔ FitMembers items := by
  cases items with
  | nil => exact ⟨fun _ => trivial, fun _ => ⟨_, rfl⟩⟩
  | cons member items =>
    obtain ⟨string, item⟩ := member
    rw [printMembers, printStringPtr_ok]
    refine (bind_isOk_and (printValue fmt item depth) (printMembers fmt items depth)).trans ?_
    rw [printValue_ok fmt item depth, printMembers_ok fmt items depth]
    rfl

end

/-- An item is printed inside of the buffers exactly if all its numbers fit. -/
theorem print_inside (fmt : Bool) (item : Item P) : (∃ text, printValue fmt item 0 = .ok text) ↔ item.Fits := printValue_ok fmt item 0

end Movid.Json
