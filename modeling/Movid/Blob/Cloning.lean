import Movid.Blob.Container

/-!
# What a clone keeps

A clone has the same names, and every value as a string. Reading a string as a boolean or a number is not always the inverse of
printing it.
-/

namespace Movid

open Preset (Platform Value)

variable {P : Platform}

namespace Preset.Value

/-- `asBool`; `zero` says which doubles are equal to 0. -/
def asBool (zero : P.Double → Bool) : Value P → Bool
  | bool b => b
  | string s => convertToBool s
  | integer n => if n = 0 then false else true
  | double x => if zero x then false else true
  | pointList points => points.length > 0

/-- The types that a clone may hold without rounding. -/
def Scalar : Value P → Prop
  | bool _ | string _ | integer _ => True
  | double _ | pointList _ => False

/-- The accessors do not tell the two values apart. -/
structure ReadsAs (zero : P.Double → Bool) (v w : Value P) : Prop where
  asString : w.asString = v.asString
  asBool : w.asBool zero = v.asBool zero
  asInteger : w.asInteger = v.asInteger

/-- A string, `false`, 0 or 1: what an accessor reads alike from the value and from its text. -/
def Stringlike : Value P → Prop
  | bool b => b = false
  | integer n => n = 0 ∨ n = 1
  | _ => True

theorem showInt_injective {a b : Int} (same : Text.showInt a = Text.showInt b) : a = b := by
  rw [← Text.readInt_showInt a, same, Text.readInt_showInt]

/-- Only the number 1 is printed as a text that reads as true. -/
theorem convertToBool_showInt (n : Int) : convertToBool (Text.showInt n) = decide (n = 1) := by
  have word (c : Char) (rest : Str) (letter : c ≠ '-' ∧ c.isDigit = false) : (Text.showInt n == c :: rest) = false := by
    refine beq_eq_false_iff_ne.mpr fun same => ?_
    rcases Text.showInt_chars n c (by rw [same]; exact List.mem_cons_self) with minus | digit
    · exact letter.1 minus
    · rw [letter.2] at digit
      cases digit
  have one : (Text.showInt n == "1".toList) = decide (n = 1) := by
    rw [Bool.eq_iff_iff, beq_iff_eq, decide_eq_true_eq]
    exact ⟨fun same => showInt_injective same, fun same => by rw [same]; rfl⟩
  have capital : (Text.showInt n == "True".toList) = false := word 'T' "rue".toList (by decide)
  have small : (Text.showInt n == "true".toList) = false := word 't' "rue".toList (by decide)
  have capitals : (Text.showInt n == "TRUE".toList) = false := word 'T' "RUE".toList (by decide)
  rw [convertToBool, capital, small, capitals, one]
  rfl

variable (zero : P.Double → Bool)

theorem readsAs_integer_iff (n : Int32) : (integer n : Value P).ReadsAs zero (string (Text.showInt n.toInt)) ↔ n = 0 ∨ n = 1 := by
  have truth : convertToBool (Text.showInt n.toInt) = decide (n = 1) := by
    rw [convertToBool_showInt]
    exact decide_eq_decide.mpr ⟨fun same => Int32.toInt_inj.mp same, fun same => by rw [same]; rfl⟩
  have agree : decide (n = 1) = (if n = 0 then false else true) ↔ n = 0 ∨ n = 1 := by
    by_cases null : n = 0
    · simp [null]
    · simp [null]
  constructor
  · intro reads
    exact agree.mp (truth.symm.trans reads.asBool)
  · intro small
    exact ⟨rfl, truth.trans (agree.mpr small), Text.atoi_showInt n⟩

theorem readsAs_string_iff {v : Value P} (scalar : v.Scalar) : v.ReadsAs zero (string v.asString) ↔ v.Stringlike := by
  cases v with
  | string s => exact iff_of_true ⟨rfl, rfl, rfl⟩ trivial
  | bool b =>
    cases b with
    | false => exact iff_of_true ⟨rfl, rfl, rfl⟩ rfl
    | true =>
      refine iff_of_false (fun reads => ?_) nofun
      have number : Text.atoi "true".toList = 1 := reads.asInteger
      exact absurd number (by decide)
  | integer n => exact readsAs_integer_iff zero n
  | double x => cases scalar
  | pointList points => cases scalar

end Preset.Value

namespace Container

variable (zero : P.Double → Bool) (c : Container P)

/-- The same names, and values that the accessors do not tell apart. -/
structure Faithful (d : Container P) : Prop where
  names : d.properties.entries.map (·.1) = c.properties.entries.map (·.1)
  values : ∀ name v w, c.properties.find name = some v → d.properties.find name = some w → v.ReadsAs zero w

theorem clone_names : c.clone.properties.entries.map (·.1) = c.properties.entries.map (·.1) := by
  unfold clone OrderedMap.map
  rw [List.map_map]
  rfl

/-- A clone of strings, booleans and integers is faithful exactly when they are no more than what a string can tell. -/
theorem clone_faithful_iff (scalar : ∀ name v, c.properties.find name = some v → v.Scalar) :
    c.Faithful zero c.clone ↔ ∀ name v, c.properties.find name = some v → v.Stringlike := by
  constructor
  · intro faithful name v found
    refine (Value.readsAs_string_iff zero (scalar name v found)).mp (faithful.values name v _ found ?_)
    rw [clone, OrderedMap.find_map, found]
    rfl
  · intro stringlike
    refine ⟨clone_names c, fun name v w found copied => ?_⟩
    rw [clone, OrderedMap.find_map, found] at copied
    cases copied
    exact (Value.readsAs_string_iff zero (scalar name v found)).mpr (stringlike name v found)

def isZero : Platform.whole.Double → Bool := fun (x : Int) => x == 0

/-- A blob with a number. -/
def numbered (n : Int32) : Container Platform.whole := (empty.put "implements" (.string "pos,size".toList)).put "blob_id" (.integer n)

theorem numbered_find {n : Int32} {name : Str} {v : Value Platform.whole} (found : (numbered n).properties.find name = some v) :
    v = .string "pos,size".toList ∨ v = .integer n := by
  unfold numbered put at found
  simp only [OrderedMap.find_insert] at found
  split at found
  · cases found
    exact Or.inr rfl
  · split at found
    · cases found
      exact Or.inl rfl
    · cases found

theorem numbered_scalar (n : Int32) (name : Str) (v : Value Platform.whole) (found : (numbered n).properties.find name = some v) :
    v.Scalar := by
  rcases numbered_find found with rfl | rfl <;> trivial

theorem first_faithful : (numbered 1).Faithful isZero (numbered 1).clone := by
  refine (clone_faithful_iff isZero (numbered 1) (numbered_scalar 1)).mpr fun name v found => ?_
  rcases numbered_find found with rfl | rfl
  · trivial
  · exact Or.inr rfl

/-- The copy of a blob of number 5 has `false` where the blob has `true`. -/
theorem fifth_unfaithful :
    ¬ ∀ c : Container Platform.whole, (∀ name v, c.properties.find name = some v → v.Scalar) → c.Faithful isZero c.clone := by
  intro always
  have reads := (always (numbered 5) (numbered_scalar 5)).values "blob_id".toList (.integer 5) (.string "5".toList) (by rfl) (by rfl)
  exact absurd reads.asBool (by decide)

end Container

end Movid
