import Movid.Graph.Wiring

/-!
# Taking a module out of the graph

`web_pipeline_remove` first takes the module off the observers of its inputs, then cuts
every connection that starts at one of its outputs, and deletes it last.
-/

namespace Movid.Net

variable {α : Type} {w : Net α} {r : ModuleRef} {s : StreamRef} {gone : Set ModuleRef}

/-! ### The inputs of the removed module -/

theorem disconnectInputs_frame (r : ModuleRef) (inputs : List InputPort) (w : Net α) :
    (disconnectInputs r inputs w).modules = w.modules ∧ (disconnectInputs r inputs w).elements = w.elements ∧
      (disconnectInputs r inputs w).next = w.next := by
  induction inputs generalizing w with
  | nil => exact ⟨rfl, rfl, rfl⟩
  | cons port inputs ih =>
    cases h : port.stream with
    | none =>
      simp only [disconnectInputs, List.foldl_cons, h]
      exact ih w
    | some t =>
      simp only [disconnectInputs, List.foldl_cons, h]
      exact ih (w.removeObserver t r)

theorem removeObserver_observers (w : Net α) (s t : StreamRef) (r : ModuleRef) :
    (w.removeObserver t r).observers s = if t = s then (w.observers s).erase r else w.observers s := by
  by_cases h : t = s
  · simp [removeObserver, h]
  · simp [removeObserver, h, Function.update_of_ne (Ne.symm h)]

theorem disconnectInputs_count (r x : ModuleRef) (inputs : List InputPort) (w : Net α) (s : StreamRef) :
    ((disconnectInputs r inputs w).observers s).count x =
      (w.observers s).count x - if x = r then inputs.countP (·.stream == some s) else 0 := by
  induction inputs generalizing w with
  | nil => simp [disconnectInputs]
  | cons port inputs ih =>
    cases h : port.stream with
    | none => simpa [disconnectInputs, h] using ih w
    | some t =>
      have rest := ih (w.removeObserver t r)
      have first : disconnectInputs r (port :: inputs) w = disconnectInputs r inputs (w.removeObserver t r) := by
        simp only [disconnectInputs, List.foldl_cons, h]
      rw [first, rest, removeObserver_observers]
      by_cases here : t = s
      · by_cases same : x = r
        · simp [here, same, h]
          omega
        · simp [here, same, List.count_erase_of_ne same]
      · simp [here, h]

theorem Wiring.disconnectInputs (wired : w.Wiring ∅) {m : Module α} (found : w.modules r = some m) :
    (disconnectInputs r m.inputs w).Wiring {r} := by
  obtain ⟨modules, elements, next⟩ := disconnectInputs_frame r m.inputs w
  have shape : (Net.disconnectInputs r m.inputs w).shape = w.shape := by
    unfold Net.shape
    rw [modules]
  have slots (x : ModuleRef) (s : StreamRef) :
      (Net.disconnectInputs r m.inputs w).slotCount x s = w.slotCount x s := by
    unfold slotCount
    rw [modules]
  have counted (s : StreamRef) (x : ModuleRef) := disconnectInputs_count r x m.inputs w s
  refine ⟨?_, ?_, ?_, ?_, ?_, ?_, ?_, ?_⟩
  · intro s x output kept
    rw [isOutput_congr shape] at output
    rw [counted, if_neg (by simpa using kept), slots]
    exact wired.count s x output (by simp)
  · intro s x output left
    rw [isOutput_congr shape] at output
    obtain rfl : x = r := by simpa using left
    have before := wired.count s x output (by simp)
    rw [slotCount_of_some found] at before
    rw [← List.count_eq_zero, counted, if_pos rfl, before, Nat.sub_self]
  · intro x s _ used
    rw [slots] at used
    rw [isOutput_congr shape, elements]
    exact wired.slot x s (by simp) used
  · rw [elements, shape]
    exact wired.element
  · rw [elements]
    exact wired.nodup
  · rw [elements, shape]
    exact wired.outside
  · rw [next, modules]
    exact wired.fresh
  · intro s notOutput place
    rw [isOutput_congr shape] at notOutput
    rw [next, shape] at place
    have before := wired.unobserved s notOutput place
    rw [List.eq_nil_iff_forall_not_mem]
    intro x
    rw [← List.count_eq_zero, counted, before]
    simp

/-! ### The outputs of the removed module -/

theorem firstObserving_some {i : Nat} (h : w.firstObserving s = some (r, i)) :
    r ∈ w.observers s ∧ ∃ m port, w.modules r = some m ∧ m.inputs[i]? = some port ∧ port.stream = some s := by
  obtain ⟨x, member, h⟩ := List.exists_of_findSome?_eq_some h
  obtain ⟨m, found, h⟩ := Option.bind_eq_some_iff.mp h
  obtain ⟨j, hit, h⟩ := Option.map_eq_some_iff.mp h
  cases h
  obtain ⟨inside, points, _⟩ := List.findIdx?_eq_some_iff_getElem.mp hit
  exact ⟨member, m, m.inputs[i], found, List.getElem?_eq_getElem inside, by simpa using points⟩

theorem firstObserving_none (h : w.firstObserving s = none) : ∀ r ∈ w.observers s, w.slotCount r s = 0 := by
  intro r member
  have missed := List.findSome?_eq_none_iff.mp h r member
  cases found : w.modules r with
  | none => exact slotCount_of_none found
  | some m =>
    rw [slotCount_of_some found, List.countP_eq_zero]
    rw [found] at missed
    simpa using missed

theorem setInput_none_eq_relink {m : Module α} {port : InputPort} {i : Nat} (found : w.modules r = some m)
    (slot : m.inputs[i]? = some port) : w.setInput r none i = w.relink r i port.stream none := by
  have at_i : m.inputPort i = some port := by simp [Module.inputPort, slot]
  obtain ⟨bad, _⟩ | ⟨port', at_i', ⟨_, same⟩ | ⟨_, h, _⟩⟩ := setInput_cases found none (i : Int)
  · rw [at_i] at bad
    cases bad
  · rw [at_i] at at_i'
    cases at_i'
    exact same
  · cases h

/-- In `v` nothing is connected to `s` any more; no connection is new. -/
structure Cut (gone : Set ModuleRef) (s : StreamRef) (w v : Net α) : Prop where
  wired : v.Wiring gone
  shape : v.shape = w.shape
  elements : v.elements = w.elements
  cut : ∀ r, r ∉ gone → v.slotCount r s = 0
  fewer : ∀ r t, v.slotCount r t ≤ w.slotCount r t

theorem relink_none_slotCount_le {m : Module α} {port : InputPort} {i : Nat} (found : w.modules r = some m)
    (slot : m.inputs[i]? = some port) (x : ModuleRef) (t : StreamRef) :
    (w.relink r i port.stream none).slotCount x t ≤ w.slotCount x t := by
  by_cases same : x = r
  · subst same
    have moved := relink_slotCount_self found slot none t
    simp only [show ((none : Option StreamRef) == some t) = false from rfl, Bool.toNat_false] at moved
    omega
  · rw [relink_slotCount_of_ne w same]

theorem Cut.stop (wired : w.Wiring gone) (output : w.IsOutput s)
    (detached : ∀ r ∈ w.observers s, w.slotCount r s = 0) : Cut gone s w w where
  wired := wired
  shape := rfl
  elements := rfl
  cut r kept := by
    by_cases member : r ∈ w.observers s
    · exact detached r member
    · rw [← wired.count s r output kept, List.count_eq_zero]
      exact member
  fewer _ _ := Nat.le_refl _

/-- The restart loop: each round detaches one observer, so it ends with all of them detached. -/
theorem removeObserversLoop_cut (fuel : Nat) (wired : w.Wiring gone) (output : w.IsOutput s)
    (enough : (w.observers s).length ≤ fuel) : Cut gone s w (removeObserversLoop s fuel w) := by
  induction fuel generalizing w with
  | zero =>
    have empty : w.observers s = [] := List.length_eq_zero_iff.mp (Nat.le_zero.mp enough)
    exact Cut.stop wired output (by simp [empty])
  | succ fuel ih =>
    unfold removeObserversLoop
    cases first : w.firstObserving s with
    | none => exact Cut.stop wired output (firstObserving_none first)
    | some found =>
      obtain ⟨r, i⟩ := found
      obtain ⟨member, m, port, live, slot, points⟩ := firstObserving_some first
      have kept : r ∉ gone := fun left => wired.absent s r output left member
      simp only [setInput_none_eq_relink live slot]
      have after : (w.relink r i port.stream none).Wiring gone := wired.relink live slot kept (by simp)
      have shorter : ((w.relink r i port.stream none).observers s).length ≤ fuel := by
        have one := List.length_erase_of_mem member
        rw [relink_observers, if_pos points]
        simp only [reduceCtorEq, if_false, List.append_nil]
        omega
      have rest := ih after ((relink_isOutput w r i port.stream none s).mpr output) shorter
      exact ⟨rest.wired, rest.shape.trans (relink_shape ..), rest.elements.trans (relink_elements ..),
        rest.cut, fun x t => (rest.fewer x t).trans (relink_none_slotCount_le live slot x t)⟩

theorem Wiring.removeObservers (wired : w.Wiring gone) (output : w.IsOutput s) :
    Cut gone s w (w.removeObservers s) := by
  have loop := removeObserversLoop_cut _ wired output (Nat.le_refl _)
  refine ⟨?_, loop.shape, loop.elements, loop.cut, loop.fewer⟩
  have before := loop.wired
  refine ⟨?_, ?_, before.slot, before.element, before.nodup, before.outside, before.fresh, ?_⟩
  · intro t x output' kept
    by_cases here : t = s
    · subst here
      have cut := loop.cut x kept
      simpa [Net.removeObservers, slotCount] using cut.symm
    · simp only [Net.removeObservers, Function.update_of_ne here]
      exact before.count t x output' kept
  · intro t x output' left
    by_cases here : t = s
    · simp [Net.removeObservers, here]
    · simp only [Net.removeObservers, Function.update_of_ne here]
      exact before.absent t x output' left
  · intro t notOutput place
    by_cases here : t = s
    · simp [Net.removeObservers, here]
    · simp only [Net.removeObservers, Function.update_of_ne here]
      exact before.unobserved t notOutput place

theorem disconnectOutputs_cut (count : Nat) (wired : w.Wiring gone)
    (outputs : ∀ i < count, w.IsOutput ⟨r, i⟩) :
    (disconnectOutputs r count w).Wiring gone ∧ (disconnectOutputs r count w).shape = w.shape ∧
      (disconnectOutputs r count w).elements = w.elements ∧
      ∀ i < count, ∀ x, x ∉ gone → (disconnectOutputs r count w).slotCount x ⟨r, i⟩ = 0 := by
  induction count with
  | zero => exact ⟨wired, rfl, rfl, fun i inside => absurd inside (Nat.not_lt_zero i)⟩
  | succ count ih =>
    obtain ⟨before, shape, elements, cut⟩ := ih fun i inside => outputs i (Nat.lt_succ_of_lt inside)
    have last : disconnectOutputs r (count + 1) w = (disconnectOutputs r count w).removeObservers ⟨r, count⟩ := by
      simp only [disconnectOutputs, List.range_succ, List.foldl_append, List.foldl_cons, List.foldl_nil]
    have output := (isOutput_congr shape).mpr (outputs count (Nat.lt_succ_self count))
    have now := before.removeObservers output
    rw [last]
    refine ⟨now.wired, now.shape.trans shape, now.elements.trans elements, fun i inside x kept => ?_⟩
    rcases Nat.lt_succ_iff_lt_or_eq.mp inside with earlier | rfl
    · exact Nat.le_zero.mp ((now.fewer x _).trans_eq (cut i earlier x kept))
    · exact now.cut x kept

/-! ### What the connections leave alone -/

/-- The part of a live module that the connection code never looks at. -/
def state (w : Net α) (r : ModuleRef) : Option α := (w.modules r).map (·.state)

theorem setInput_state (w : Net α) (r : ModuleRef) (stream : Option StreamRef) (n : Int) :
    (w.setInput r stream n).state = w.state := by
  funext x
  unfold state
  by_cases here : x = r
  · subst here
    cases found : w.modules x with
    | none => rw [setInput_of_none found, found]
    | some m =>
      obtain ⟨m', now, same, _⟩ := setInput_modules_self found stream n
      rw [now, Option.map_some, same, Option.map_some]
  · rw [setInput_modules_of_ne w here]

theorem removeObserversLoop_state (s : StreamRef) (fuel : Nat) (w : Net α) :
    (removeObserversLoop s fuel w).state = w.state ∧ (removeObserversLoop s fuel w).elements = w.elements ∧
      (removeObserversLoop s fuel w).next = w.next := by
  induction fuel generalizing w with
  | zero => exact ⟨rfl, rfl, rfl⟩
  | succ fuel ih =>
    unfold removeObserversLoop
    split
    · exact ⟨rfl, rfl, rfl⟩
    · obtain ⟨states, elements, next⟩ := ih (w.setInput _ none _)
      exact ⟨states.trans (setInput_state ..), elements.trans (setInput_elements ..), next.trans (setInput_next ..)⟩

theorem disconnectOutputs_state (r : ModuleRef) (count : Nat) (w : Net α) :
    (disconnectOutputs r count w).state = w.state ∧ (disconnectOutputs r count w).elements = w.elements ∧
      (disconnectOutputs r count w).next = w.next := by
  unfold disconnectOutputs
  induction count with
  | zero => exact ⟨rfl, rfl, rfl⟩
  | succ count ih =>
    rw [List.range_succ, List.foldl_append]
    obtain ⟨states, elements, next⟩ := removeObserversLoop_state ⟨r, count⟩ _
      ((List.range count).foldl (fun w i => w.removeObservers ⟨r, i⟩) w)
    exact ⟨states.trans ih.1, elements.trans ih.2.1, next.trans ih.2.2⟩

/-! ### The removal as a whole -/

theorem delete_shape (w : Net α) (r x : ModuleRef) :
    (w.delete r).shape x = if x = r then none else w.shape x := by
  unfold shape
  by_cases same : x = r
  · simp [delete, same]
  · simp [delete, same, Function.update_of_ne]

theorem delete_slotCount (w : Net α) (r x : ModuleRef) (s : StreamRef) :
    (w.delete r).slotCount x s = if x = r then 0 else w.slotCount x s := by
  unfold slotCount
  by_cases same : x = r
  · simp [delete, same]
  · simp [delete, same, Function.update_of_ne]

theorem delete_isOutput (w : Net α) (r : ModuleRef) (s : StreamRef) :
    (w.delete r).IsOutput s ↔ s.owner ≠ r ∧ w.IsOutput s := by
  unfold IsOutput
  rw [delete_shape]
  by_cases same : s.owner = r <;> simp [same]

theorem deleteElement_elements (w : Net α) (r : ModuleRef) : ((w.removeElement r).delete r).elements = w.elements.erase r := rfl

/-- A module whose outputs nobody reads and that observes nothing can go. -/
theorem Wiring.deleteElement (wired : w.Wiring {r}) (unread : ∀ s x, s.owner = r → x ≠ r → w.IsOutput s →
    w.slotCount x s = 0) : ((w.removeElement r).delete r).Wiring ∅ where
  count s x output _ := by
    obtain ⟨_, output⟩ := (delete_isOutput _ r s).mp output
    rw [delete_slotCount]
    by_cases same : x = r
    · rw [if_pos same, List.count_eq_zero]
      exact wired.absent s x output (by simp [same])
    · rw [if_neg same]
      exact wired.count s x output (by simpa using same)
  absent s x _ left := by
    simp at left
  slot x s _ used := by
    rw [delete_slotCount] at used
    split at used
    · omega
    · rename_i other
      rw [delete_isOutput, deleteElement_elements]
      rcases wired.slot x s (by simpa using other) used with output | ⟨own, outside⟩
      · refine Or.inl ⟨fun owned => ?_, output⟩
        exact Nat.ne_of_gt used (unread s x owned other output)
      · exact Or.inr ⟨own, fun member => outside (List.mem_of_mem_erase member)⟩
  element x member := by
    rw [deleteElement_elements, wired.nodup.mem_erase_iff] at member
    rw [delete_shape, if_neg member.1]
    exact wired.element x member.2
  nodup := wired.nodup.erase r
  outside x shape live outside := by
    rw [deleteElement_elements, wired.nodup.mem_erase_iff] at outside
    rw [delete_shape] at live
    split at live
    · cases live
    · rename_i other
      exact wired.outside x shape live fun member => outside ⟨other, member⟩
  fresh x beyond := by
    rw [← shape_eq_none, delete_shape]
    split
    · rfl
    · exact shape_eq_none.mpr (wired.fresh x beyond)
  unobserved s notOutput place := by
    rw [delete_isOutput] at notOutput
    rw [delete_shape] at place
    by_cases owned : s.owner = r
    · rcases place with beyond | live
      · refine wired.unobserved s (fun output => ?_) (Or.inl beyond)
        obtain ⟨_, _, live, _⟩ := output
        rw [shape_eq_none.mpr (wired.fresh s.owner beyond)] at live
        cases live
      · simp [owned] at live
    · rw [if_neg owned] at place
      exact wired.unobserved s (fun output => notOutput ⟨owned, output⟩) place

theorem Wiring.webPipelineRemove (wired : w.Wiring ∅) (r : ModuleRef) : (w.webPipelineRemove r).Wiring ∅ := by
  unfold Net.webPipelineRemove
  cases found : w.modules r with
  | none => exact wired
  | some m =>
    simp only []
    split
    · have inputs := wired.disconnectInputs found
      have frame := disconnectInputs_frame r m.inputs w
      have shape : (Net.disconnectInputs r m.inputs w).shape r = some (m.inputs.length, m.outputs) := by
        simp [Net.shape, frame.1, found]
      obtain ⟨outputs, same, _, cut⟩ := disconnectOutputs_cut (r := r) m.getOutputCount inputs
        fun i inside => ⟨m.inputs.length, m.outputs, shape, inside⟩
      apply outputs.deleteElement
      intro s x owned other output
      obtain ⟨_, declared, live, inside⟩ := (isOutput_congr same).mp output
      rw [owned, shape] at live
      cases live
      obtain ⟨owner, idx⟩ := s
      cases owned
      exact cut idx inside x (by simpa using other)
    · exact wired

theorem webPipelineCreate_state (w : Net α) (spec : ModuleSpec α) (x : ModuleRef) :
    (w.webPipelineCreate spec).state x = if x = w.next then some spec.state else w.state x := by
  unfold state
  by_cases same : x = w.next
  · simp [webPipelineCreate, addElement, allocate, ModuleSpec.build, same]
  · simp [webPipelineCreate, addElement, allocate, same, Function.update_of_ne]

theorem delete_state (w : Net α) (r x : ModuleRef) : (w.delete r).state x = if x = r then none else w.state x := by
  unfold state
  by_cases same : x = r
  · simp [delete, same]
  · simp [delete, same, Function.update_of_ne]

theorem webPipelineRemove_state (w : Net α) {r : ModuleRef} {m : Module α} (found : w.modules r = some m)
    (inside : r ∈ w.elements) :
    (∀ x, (w.webPipelineRemove r).state x = if x = r then none else w.state x) ∧
      (w.webPipelineRemove r).elements = w.elements.erase r ∧ (w.webPipelineRemove r).next = w.next := by
  have removed : w.webPipelineRemove r = (((disconnectOutputs r m.getOutputCount
      (disconnectInputs r m.inputs w)).removeElement r).delete r) := by
    unfold Net.webPipelineRemove
    rw [found]
    simp only [inside, if_true]
  obtain ⟨modules, elements, next⟩ := disconnectInputs_frame r m.inputs w
  obtain ⟨states, elements', next'⟩ := disconnectOutputs_state r m.getOutputCount (disconnectInputs r m.inputs w)
  rw [removed]
  refine ⟨fun x => ?_, ?_, next'.trans next⟩
  · rw [delete_state]
    split
    · rfl
    · apply (congrFun states x).trans
      unfold state
      rw [modules]
  · change (disconnectOutputs r m.getOutputCount (disconnectInputs r m.inputs w)).elements.erase r = _
    rw [elements', elements]

end Movid.Net
