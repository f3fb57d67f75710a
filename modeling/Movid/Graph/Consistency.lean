import Movid.Graph.Removal

/-!
# Both records of a connection agree in every reachable state

Clearing the pipeline is the exception: it deletes the modules and leaves the inputs of the
open streams as they are.
-/

namespace Movid.Net

variable {α : Type} {w : Net α} {r : ModuleRef} {s : StreamRef}

/-! ### New modules -/

theorem Wiring.notOutput_of_fresh (wired : w.Wiring ∅) (beyond : w.next ≤ s.owner) : ¬w.IsOutput s := by
  rintro ⟨_, _, live, _⟩
  rw [shape_eq_none.mpr (wired.fresh s.owner beyond)] at live
  cases live

theorem allocate_shape (w : Net α) (m : Module α) (x : ModuleRef) :
    (w.allocate m).shape x = if x = w.next then some (m.inputs.length, m.outputs) else w.shape x := by
  unfold shape
  by_cases same : x = w.next
  · simp [allocate, same]
  · simp [allocate, same, Function.update_of_ne]

theorem allocate_slotCount (w : Net α) (m : Module α) (x : ModuleRef) (s : StreamRef) :
    (w.allocate m).slotCount x s =
      if x = w.next then m.inputs.countP (·.stream == some s) else w.slotCount x s := by
  unfold slotCount
  by_cases same : x = w.next
  · simp [allocate, same]
  · simp [allocate, same, Function.update_of_ne]

theorem allocate_isOutput (wired : w.Wiring ∅) (m : Module α) (s : StreamRef) :
    (w.allocate m).IsOutput s ↔ (s.owner = w.next ∧ s.idx < m.outputs.length) ∨ w.IsOutput s := by
  by_cases new : s.owner = w.next
  · rw [or_iff_left (wired.notOutput_of_fresh (Nat.le_of_eq new.symm))]
    unfold IsOutput
    rw [allocate_shape, if_pos new]
    simp [new]
  · unfold IsOutput
    rw [allocate_shape, if_neg new]
    simp [new]

theorem Wiring.unslotted (wired : w.Wiring ∅) {s : StreamRef} {x : ModuleRef} (beyond : w.next ≤ s.owner)
    (other : x ≠ s.owner) : w.slotCount x s = 0 := by
  by_contra used
  rcases wired.slot x s (by simp) (Nat.pos_of_ne_zero used) with output | ⟨owned, _⟩
  · exact wired.notOutput_of_fresh beyond output
  · exact other owned.symm

section Allocate

variable {m : Module α} {elements : List ModuleRef}

/-- An output of the new module has no observers, and the new module observes no other output. -/
theorem Wiring.allocate_count (wired : w.Wiring ∅)
    (own : ∀ s, 0 < m.inputs.countP (·.stream == some s) → s.owner = w.next ∧ w.next ∉ elements)
    (outside : w.next ∉ elements → (m.inputs.length, m.outputs) = (1, [])) {s : StreamRef} {x : ModuleRef}
    (output : (w.allocate m).IsOutput s) : (w.observers s).count x = (w.allocate m).slotCount x s := by
  have unused (same : s.owner ≠ w.next ∨ w.next ∈ elements) : m.inputs.countP (·.stream == some s) = 0 := by
    by_contra used
    obtain ⟨owned, left⟩ := own s (Nat.pos_of_ne_zero used)
    rcases same with other | member
    · exact other owned
    · exact left member
  rw [allocate_slotCount]
  rcases (allocate_isOutput wired m s).mp output with ⟨owned, inside⟩ | output
  · have member : w.next ∈ elements := by
      by_contra left
      have empty : m.outputs = [] := congrArg Prod.snd (outside left)
      simp [empty] at inside
    have beyond := Nat.le_of_eq owned.symm
    rw [wired.unobserved s (wired.notOutput_of_fresh beyond) (Or.inl beyond), List.count_nil]
    split
    · exact (unused (Or.inr member)).symm
    · rename_i other
      exact (wired.unslotted beyond (by rw [owned]; exact other)).symm
  · have other : s.owner ≠ w.next := fun owned => wired.notOutput_of_fresh (Nat.le_of_eq owned.symm) output
    rw [wired.count s x output (by simp)]
    split
    · rename_i new
      rw [unused (Or.inl other), new, slotCount_of_none (wired.fresh w.next (Nat.le_refl _))]
    · rfl

/-- A module that is new and observes nothing. Outside the pipeline its input may start on a
stream of its own. -/
theorem Wiring.allocate (wired : w.Wiring ∅) (m : Module α) (elements : List ModuleRef)
    (nodup : elements.Nodup) (others : ∀ r, r ≠ w.next → (r ∈ elements ↔ r ∈ w.elements))
    (own : ∀ s, 0 < m.inputs.countP (·.stream == some s) → s.owner = w.next ∧ w.next ∉ elements)
    (outside : w.next ∉ elements → (m.inputs.length, m.outputs) = (1, [])) :
    Wiring ∅ { w.allocate m with elements := elements } := by
  refine ⟨fun s x output _ => wired.allocate_count own outside output, ?_, ?_, ?_, nodup, ?_, ?_, ?_⟩
  · intro s x _ left
    simp at left
  · intro x s _ used
    change 0 < (w.allocate m).slotCount x s at used
    change (w.allocate m).IsOutput s ∨ (s.owner = x ∧ x ∉ elements)
    rw [allocate_slotCount] at used
    rw [allocate_isOutput wired]
    split at used
    · rename_i new
      subst new
      exact Or.inr (own s used)
    · rename_i other
      rcases wired.slot x s (by simp) used with output | ⟨owned, left⟩
      · exact Or.inl (Or.inr output)
      · exact Or.inr ⟨owned, fun member => left ((others x other).mp member)⟩
  · intro x member
    change (w.allocate m).shape x ≠ none
    rw [allocate_shape]
    split
    · simp
    · rename_i other
      exact wired.element x ((others x other).mp member)
  · intro x shape live left
    change (w.allocate m).shape x = some shape at live
    rw [allocate_shape] at live
    split at live
    · rename_i new
      subst new
      exact (Option.some.inj live).symm.trans (outside left)
    · rename_i other
      exact wired.outside x shape live fun member => left ((others x other).mpr member)
  · intro x beyond
    have later : w.next + 1 ≤ x := beyond
    rw [← shape_eq_none]
    change (w.allocate m).shape x = none
    rw [allocate_shape, if_neg (by rintro rfl; exact Nat.not_succ_le_self _ later)]
    exact shape_eq_none.mpr (wired.fresh x (Nat.le_of_succ_le later))
  · intro s notOutput place
    change ¬(w.allocate m).IsOutput s at notOutput
    change w.next + 1 ≤ s.owner ∨ (w.allocate m).shape s.owner ≠ none at place
    rw [allocate_isOutput wired, not_or] at notOutput
    by_cases new : s.owner = w.next
    · exact wired.unobserved s notOutput.2 (Or.inl (Nat.le_of_eq new.symm))
    · rw [allocate_shape, if_neg new] at place
      exact wired.unobserved s notOutput.2 (place.imp_left Nat.le_of_succ_le)

end Allocate

theorem Wiring.empty : (Net.empty : Net α).Wiring ∅ := by
  refine ⟨?_, ?_, ?_, ?_, List.nodup_nil, ?_, fun _ _ => rfl, fun _ _ _ => rfl⟩
  · rintro s r ⟨_, _, live, _⟩
    cases live
  · rintro s r ⟨_, _, live, _⟩
    cases live
  · intro r s _ used
    simp [slotCount, Net.empty] at used
  · intro r member
    simp [Net.empty] at member
  · intro r shape live
    cases live

theorem Wiring.webPipelineCreate (wired : w.Wiring ∅) (spec : ModuleSpec α) :
    (w.webPipelineCreate spec).Wiring ∅ := by
  have unknown : w.next ∉ w.elements := fun member =>
    wired.element _ member (shape_eq_none.mpr (wired.fresh _ (Nat.le_refl _)))
  refine wired.allocate spec.build (w.elements ++ [w.next]) ?_ ?_ ?_ ?_
  · exact List.nodup_append.mpr ⟨wired.nodup, List.nodup_singleton _, by
      rintro x member y new rfl
      exact unknown (List.mem_singleton.mp new ▸ member)⟩
  · intro x other
    simp [other]
  · intro s used
    obtain ⟨port, member, points⟩ := List.countP_pos_iff.mp used
    obtain ⟨type, _, rfl⟩ := List.mem_map.mp member
    simp at points
  · simp

/-! ### Open streams -/

theorem Wiring.webPipelineStream (wired : w.Wiring ∅) (r : ModuleRef) (idx : Int) (state : α) :
    (w.webPipelineStream r idx state).Wiring ∅ := by
  have unknown : w.next ∉ w.elements := fun member =>
    wired.element _ member (shape_eq_none.mpr (wired.fresh _ (Nat.le_refl _)))
  unfold Net.webPipelineStream
  split
  · split
    · exact wired
    · rename_i s found
      have opened : (w.allocate (streamModule w.next state)).Wiring ∅ := by
        refine wired.allocate (streamModule w.next state) w.elements wired.nodup (fun _ _ => Iff.rfl) ?_ fun _ => rfl
        intro t used
        obtain ⟨port, member, points⟩ := List.countP_pos_iff.mp used
        obtain rfl := List.mem_singleton.mp member
        obtain rfl : (⟨w.next, 0⟩ : StreamRef) = t := by simpa using points
        exact ⟨rfl, unknown⟩
      refine opened.setInput (by simp) ?_ 0
      rintro t ⟨⟩
      exact (allocate_isOutput wired _ _).mpr (Or.inr (getOutput_isOutput found))
  · exact wired

theorem Wiring.retire (wired : w.Wiring ∅) (unused : ∀ s, w.slotCount r s = 0) : w.Wiring {r} where
  count s x output _ := wired.count s x output (by simp)
  absent s x output left := by
    obtain rfl : x = r := by simpa using left
    rw [← List.count_eq_zero, wired.count s x output (by simp), unused]
  slot x s _ := wired.slot x s (by simp)
  element := wired.element
  nodup := wired.nodup
  outside := wired.outside
  fresh := wired.fresh
  unobserved := wired.unobserved

theorem slotCount_setInput_none {m : Module α} (found : w.modules r = some m) (single : m.inputs.length = 1)
    (s : StreamRef) : (w.setInput r none 0).slotCount r s = 0 := by
  obtain ⟨port, only⟩ := List.length_eq_one_iff.mp single
  have slot : m.inputs[0]? = some port := by simp [only]
  have same := setInput_none_eq_relink found slot
  have moved := relink_slotCount_self found slot none s
  rw [Int.natCast_zero] at same
  rw [same]
  rw [slotCount_of_some found, only] at moved
  simp only [show ((none : Option StreamRef) == some s) = false from rfl, Bool.toNat_false] at moved
  cases h : port.stream == some s <;> simp [h] at moved <;> simpa using moved

theorem Wiring.webPipelineStreamClose (wired : w.Wiring ∅) (r : ModuleRef) :
    (w.webPipelineStreamClose r).Wiring ∅ := by
  unfold Net.webPipelineStreamClose
  split
  · exact wired
  · rename_i left
    have detached : (w.setInput r none 0).Wiring ∅ := wired.setInput (by simp) (by simp) 0
    have elements : ((w.setInput r none 0).removeElement r) = w.setInput r none 0 := by
      rw [removeElement, setInput_elements, List.erase_of_not_mem left, ← setInput_elements w r none 0]
    have unused (s : StreamRef) : (w.setInput r none 0).slotCount r s = 0 := by
      cases found : w.modules r with
      | none => rw [setInput_of_none found]; exact slotCount_of_none found
      | some m =>
        have single := wired.outside r (m.inputs.length, m.outputs) (by simp [shape, found]) left
        exact slotCount_setInput_none found (congrArg Prod.fst single) s
    rw [← elements]
    apply (detached.retire unused).deleteElement
    intro s x owned _ output
    -- A module outside the pipeline has no output.
    obtain ⟨inputs, outputs, live, inside⟩ := (isOutput_congr (setInput_shape w r none 0)).mp output
    rw [owned] at live
    have empty : outputs = [] := congrArg Prod.snd (wired.outside r (inputs, outputs) live left)
    simp [empty] at inside

/-! ### Every reachable state -/

theorem Wiring.step (wired : w.Wiring ∅) (event : Event α) : (w.step event).Wiring ∅ := by
  cases event with
  | create spec => exact wired.webPipelineCreate spec
  | setInput r source n =>
    refine wired.setInput (by simp) (fun s h => ?_) n
    obtain ⟨⟨k, i⟩, _, found⟩ := Option.bind_eq_some_iff.mp h
    exact getOutput_isOutput found
  | openStream r idx state => exact wired.webPipelineStream r idx state
  | closeStream r => exact wired.webPipelineStreamClose r
  | remove r => exact wired.webPipelineRemove r

/-- What the two records of the connections promise each other. -/
structure Consistent (w : Net α) : Prop where
  observed : ∀ s r m, w.IsOutput s → w.modules r = some m →
    (w.observers s).count r = m.inputs.countP (·.stream == some s)
  connected : ∀ r ∈ w.elements, ∀ m, w.modules r = some m → ∀ port ∈ m.inputs, ∀ s,
    port.stream = some s → w.IsOutput s
  removed : ∀ s, w.modules s.owner ≠ none → ∀ r ∈ w.observers s, w.modules r ≠ none

theorem Wiring.consistent (wired : w.Wiring ∅) : w.Consistent where
  observed s r m output found := by
    rw [← slotCount_of_some found]
    exact wired.count s r output (by simp)
  connected r member m found port inside s points := by
    have used : 0 < w.slotCount r s := by
      rw [slotCount_of_some found]
      exact List.countP_pos_iff.mpr ⟨port, inside, by simp [points]⟩
    rcases wired.slot r s (by simp) used with output | ⟨_, left⟩
    · exact output
    · exact absurd member left
  removed s live r member dead := by
    by_cases output : w.IsOutput s
    · have counted := wired.count s r output (by simp)
      rw [slotCount_of_none dead, List.count_eq_zero] at counted
      exact counted member
    · rw [wired.unobserved s output (Or.inr (mt shape_eq_none.mp live))] at member
      cases member

/-- The records agree after any sequence of requests. -/
theorem run_consistent (events : List (Event α)) : (Machine.run step Net.empty events).Consistent :=
  (Machine.run_invariant (I := Wiring ∅) (fun _ event wired => wired.step event) Wiring.empty events).consistent

end Movid.Net
