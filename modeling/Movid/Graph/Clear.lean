import Movid.Graph.Consistency

/-!
# Clearing the pipeline while streams are open

`clear` deletes every module of the pipeline and tells nobody. The input of an open
`/pipeline/stream` then still points to a stream of a deleted module.
-/

namespace Movid.Net

variable {α : Type} {w : Net α}

/-- Every input slot of a live module refers to a stream of a live module. -/
def NoDangling (w : Net α) : Prop :=
  ∀ r m, w.modules r = some m → ∀ port ∈ m.inputs, ∀ s, port.stream = some s → w.modules s.owner ≠ none

/-- No module behind an open stream reads a stream of the pipeline. -/
def StreamsApart (w : Net α) : Prop :=
  ∀ r, r ∉ w.elements → ∀ m, w.modules r = some m → ∀ port ∈ m.inputs, ∀ s, port.stream = some s →
    s.owner ∉ w.elements

theorem foldl_delete_modules (refs : List ModuleRef) (w : Net α) (x : ModuleRef) :
    (refs.foldl delete w).modules x = if x ∈ refs then none else w.modules x := by
  induction refs generalizing w with
  | nil => simp
  | cons r refs ih =>
    rw [List.foldl_cons, ih]
    by_cases here : x = r
    · simp [here, delete]
    · simp [here, delete, Function.update_of_ne]

theorem foldl_delete_observers (refs : List ModuleRef) (w : Net α) :
    (refs.foldl delete w).observers = w.observers ∧ (refs.foldl delete w).next = w.next := by
  induction refs generalizing w with
  | nil => exact ⟨rfl, rfl⟩
  | cons r refs ih => exact ih (w.delete r)

theorem clear_modules (w : Net α) (x : ModuleRef) :
    w.clear.modules x = if x ∈ w.elements then none else w.modules x :=
  foldl_delete_modules w.elements w x

theorem clear_modules_eq_some {r : ModuleRef} {m : Module α} :
    w.clear.modules r = some m ↔ r ∉ w.elements ∧ w.modules r = some m := by
  rw [clear_modules]
  by_cases member : r ∈ w.elements <;> simp [member]

theorem Wiring.noDangling (wired : w.Wiring ∅) : w.NoDangling := by
  intro r m found port inside s points
  have used : 0 < w.slotCount r s := by
    rw [slotCount_of_some found]
    exact List.countP_pos_iff.mpr ⟨port, inside, by simp [points]⟩
  rcases wired.slot r s (by simp) used with ⟨_, _, live, _⟩ | ⟨owned, _⟩
  · intro dead
    rw [shape_eq_none.mpr dead] at live
    cases live
  · rw [owned, found]
    simp

theorem Wiring.clear_noDangling_iff (wired : w.Wiring ∅) : w.clear.NoDangling ↔ w.StreamsApart := by
  constructor
  · intro safe r left m found port inside s points member
    have dead := safe r m (clear_modules_eq_some.mpr ⟨left, found⟩) port inside s points
    rw [clear_modules, if_pos member] at dead
    exact dead rfl
  · intro apart r m found port inside s points
    obtain ⟨left, found⟩ := clear_modules_eq_some.mp found
    rw [clear_modules, if_neg (apart r left m found port inside s points)]
    exact wired.noDangling r m found port inside s points

theorem clear_slotCount (w : Net α) (r : ModuleRef) (s : StreamRef) :
    w.clear.slotCount r s = if r ∈ w.elements then 0 else w.slotCount r s := by
  unfold slotCount
  rw [clear_modules]
  split <;> rfl

theorem clear_shape (w : Net α) (r : ModuleRef) :
    w.clear.shape r = if r ∈ w.elements then none else w.shape r := by
  unfold shape
  rw [clear_modules]
  split <;> rfl

theorem Wiring.not_isOutput_of_outside (wired : w.Wiring ∅) {s : StreamRef} (left : s.owner ∉ w.elements) :
    ¬w.IsOutput s := by
  rintro ⟨inputs, outputs, live, inside⟩
  have empty : outputs = [] := congrArg Prod.snd (wired.outside s.owner (inputs, outputs) live left)
  simp [empty] at inside

theorem Wiring.not_isOutput_clear (wired : w.Wiring ∅) (s : StreamRef) : ¬w.clear.IsOutput s := by
  rintro ⟨inputs, outputs, live, inside⟩
  rw [clear_shape] at live
  split at live
  · cases live
  · rename_i left
    exact wired.not_isOutput_of_outside left ⟨inputs, outputs, live, inside⟩

theorem Wiring.clear (wired : w.Wiring ∅) (apart : w.StreamsApart) : w.clear.Wiring ∅ := by
  refine ⟨fun s _ output => absurd output (wired.not_isOutput_clear s),
    fun s _ output => absurd output (wired.not_isOutput_clear s), ?_, ?_, List.nodup_nil, ?_, ?_, ?_⟩
  · intro r s _ used
    rw [clear_slotCount] at used
    split at used
    · omega
    · rename_i left
      rcases wired.slot r s (by simp) used with output | ⟨owned, _⟩
      · cases found : w.modules r with
        | none => simp [slotCount_of_none found] at used
        | some m =>
          rw [slotCount_of_some found] at used
          obtain ⟨port, inside, points⟩ := List.countP_pos_iff.mp used
          have outside := apart r left m found port inside s (by simpa using points)
          exact absurd output (wired.not_isOutput_of_outside outside)
      · exact Or.inr ⟨owned, List.not_mem_nil⟩
  · intro r member
    cases member
  · intro r shape live _
    rw [clear_shape] at live
    split at live
    · cases live
    · rename_i left
      exact wired.outside r shape live left
  · intro r beyond
    rw [show w.clear.next = w.next from (foldl_delete_observers w.elements w).2] at beyond
    rw [clear_modules]
    split
    · rfl
    · exact wired.fresh r beyond
  · intro s _ place
    rw [show w.clear.next = w.next from (foldl_delete_observers w.elements w).2, clear_shape] at place
    rw [show w.clear.observers = w.observers from (foldl_delete_observers w.elements w).1]
    by_cases member : s.owner ∈ w.elements
    · rcases place with beyond | live
      · exact wired.unobserved s (wired.notOutput_of_fresh beyond) (Or.inl beyond)
      · simp [member] at live
    · rw [if_neg member] at place
      exact wired.unobserved s (wired.not_isOutput_of_outside member) place

/-! ### Runs with slot loads -/

def ClearOk (w : Net α) : SlotEvent α → Prop
  | .request _ => True
  | .clear => w.StreamsApart

theorem Wiring.slotStep (wired : w.Wiring ∅) (event : SlotEvent α) (ok : ClearOk w event) :
    (w.slotStep event).Wiring ∅ := by
  cases event with
  | request event => exact wired.step event
  | clear => exact wired.clear ok

theorem slotRun_wiring {events : List (SlotEvent α)} (guarded : Machine.Guarded slotStep ClearOk Net.empty events) :
    (Machine.run slotStep Net.empty events).Wiring ∅ :=
  Machine.guarded_invariant (I := Wiring ∅) (fun _ event ok wired => wired.slotStep event ok) Wiring.empty guarded

/-- A module with one image output, as `moImageModule` declares it. -/
def imageSource : ModuleSpec Unit where
  inputs := []
  outputs := ["IplImage".toList]
  state := ()

end Movid.Net
