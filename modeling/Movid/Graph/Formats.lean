import Movid.Graph.Net
import Movid.Tokenize

/-!
# Formats in the GUI and in the server

The GUI highlights what can be connected, the server decides. Both look for a format in a list with commas, the server with a scan that
skips empty fields and the GUI with a split that keeps them.
-/

namespace Movid

namespace Gui

/-- The loop of `inList` over the fields. -/
def inFields (pattern : Str) : List Str → Bool
  | [] => false
  | field :: rest => if field == pattern then true else inFields pattern rest

/-- `inList` of `movid-draw.js`. -/
def inList (pattern list : Str) (separator : Char) : Bool := inFields pattern (list.splitOn separator)

theorem inFields_iff {pattern : Str} {fields : List Str} : inFields pattern fields = true ↔ pattern ∈ fields := by
  induction fields with
  | nil => simp [inFields]
  | cons field rest ih =>
    rw [inFields, List.mem_cons]
    split
    · rename_i same
      exact iff_of_true rfl (Or.inl (beq_iff_eq.mp same).symm)
    · rename_i other
      rw [ih, or_iff_right fun same => other (beq_iff_eq.mpr same.symm)]

theorem inList_iff {pattern list : Str} {separator : Char} : inList pattern list separator = true ↔ pattern ∈ list.splitOn separator :=
  inFields_iff

/-- The highlighting of `searchWidgetConnection`: the format of an output fits the type of an input. -/
def connects (format type : Str) : Bool := inList format type ','

end Gui

namespace Utils

theorem mem_fields_iff {pattern : Str} (word : pattern ≠ []) (str : Str) (d : Char) : pattern ∈ fields str [d] ↔ pattern ∈ str.splitOn d := by
  rw [fields, List.mem_filter, decide_eq_true_eq, and_iff_left word, List.splitOn_eq_splitOnP, contains_singleton]

theorem inList_gui {pattern : Str} (word : pattern ≠ []) (str : Str) : inList pattern str [','] = some (Gui.inList pattern str ',') := by
  rw [inList_eq, Option.some_inj, Bool.eq_iff_iff, decide_eq_true_eq, mem_fields_iff word, Gui.inList_iff]

/-- A scan that skips empty fields and a split that keeps them find the same words. -/
theorem inList_agrees {pattern : Str} (word : pattern ≠ []) (str : Str) :
    inList pattern str [','] = some (Gui.inList pattern str ',') ∧ (Gui.inList pattern str ',' = true ↔ pattern ∈ str.splitOn ',') :=
  ⟨inList_gui word str, Gui.inList_iff⟩

/-- A word that is only a part of a field is not found. -/
theorem volatile_agrees :
    inList "volatile".toList "pos,volatileangle,,".toList [','] = some (Gui.inList "volatile".toList "pos,volatileangle,,".toList ',') ∧
      Gui.inList "volatile".toList "pos,volatileangle,,".toList ',' = false := by
  have word : "volatile".toList ≠ [] := by decide
  obtain ⟨agree, found⟩ := inList_agrees word "pos,volatileangle,,".toList
  exact ⟨agree, Bool.eq_false_iff.mpr (mt found.mp (by decide))⟩

end Utils

/-- The server accepts what the GUI highlights, and everything where the type is a star. -/
theorem isStreamValid_iff (port : InputPort) {format : Str} (word : format ≠ []) :
    port.isStreamValid format = true ↔ port.type = "*".toList ∨ Gui.connects format port.type = true := by
  unfold InputPort.isStreamValid Gui.connects
  rw [Utils.inList_gui word port.type, Bool.or_eq_true, beq_iff_eq, beq_iff_eq, Option.some_inj]

end Movid
