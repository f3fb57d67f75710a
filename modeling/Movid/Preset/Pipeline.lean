import Movid.Graph.Consistency
import Movid.Preset.Config

/-!
# Pipelines of registered modules

Whatever the requests do to the connections, a module keeps the inputs and outputs of its
constructor, and the live modules outside the pipeline are those behind open streams.
-/

namespace Movid.Preset

variable {P : Platform} {w v : Net (Config P)} {r : ModuleRef}

/-- What requests never change of a live module. -/
def profile (w : Net (Config P)) (r : ModuleRef) : Option (List Str × List Str × Bool × ModuleType) :=
  (w.modules r).map fun m => (m.inputs.map (·.type), m.outputs, m.isInternal, m.state.type)

/-- The modules of the pipeline are as their constructors made them, and the other live modules
are those behind open streams. -/
structure Pipeline (w : Net (Config P)) : Prop where
  wired : w.Wiring ∅
  internal : ∀ r m, w.modules r = some m → (m.isInternal = true ↔ r ∉ w.elements)
  declared : ∀ r ∈ w.elements, ∀ m, w.modules r = some m →
    m.inputs.map (·.type) = m.state.type.inputs ∧ m.outputs = m.state.type.outputs

def Kept (w : Net (Config P)) : Prop :=
  ∀ r inputs outputs internal type, profile w r = some (inputs, outputs, internal, type) →
    (internal = true ↔ r ∉ w.elements) ∧ (r ∈ w.elements → inputs = type.inputs ∧ outputs = type.outputs)

theorem pipeline_iff : Pipeline w ↔ w.Wiring ∅ ∧ Kept w := by
  constructor
  · intro pipeline
    refine ⟨pipeline.wired, fun r inputs outputs internal type h => ?_⟩
    obtain ⟨m, found, same⟩ := Option.map_eq_some_iff.mp h
    cases same
    exact ⟨pipeline.internal r m found, fun inside => pipeline.declared r inside m found⟩
  · rintro ⟨wired, kept⟩
    have known {r : ModuleRef} {m : Module (Config P)} (found : w.modules r = some m) :=
      kept r _ _ _ _ (show profile w r = some (m.inputs.map (·.type), m.outputs, m.isInternal, m.state.type) by
        rw [profile, found]
        rfl)
    exact ⟨wired, fun r m found => (known found).1, fun r inside m found => (known found).2 inside⟩

theorem Kept.congr (kept : Kept w) (profiles : profile v = profile w) (elements : v.elements = w.elements) :
    Kept v := by
  unfold Kept
  rw [profiles, elements]
  exact kept

theorem updateModule_profile (w : Net (Config P)) (r : ModuleRef) {f : Module (Config P) → Module (Config P)}
    (inputs : ∀ m, (f m).inputs.map (·.type) = m.inputs.map (·.type)) (outputs : ∀ m, (f m).outputs = m.outputs)
    (internal : ∀ m, (f m).isInternal = m.isInternal) (type : ∀ m, (f m).state.type = m.state.type) :
    profile (w.updateModule r f) = profile w := by
  funext x
  unfold profile
  rw [Net.updateModule_modules]
  split
  · rename_i same
    rw [same]
    cases w.modules r <;> simp [inputs, outputs, internal, type]
  · rfl

theorem setError_profile (w : Net (Config P)) (r : ModuleRef) (msg : Str) : profile (w.setError r msg) = profile w :=
  updateModule_profile w r (fun _ => rfl) (fun _ => rfl) (fun _ => rfl) (fun _ => rfl)

theorem relink_profile (w : Net (Config P)) (r : ModuleRef) (n : Nat) (old new : Option StreamRef) :
    profile (w.relink r n old new) = profile w := by
  have modules : profile (w.relink r n old new) = profile (w.setSlot r n new) := by
    unfold profile
    rw [Net.relink_modules]
  rw [modules]
  exact updateModule_profile w r (fun m => Net.setSlot_types m n new) (fun _ => rfl) (fun _ => rfl) (fun _ => rfl)

theorem setInput_profile (w : Net (Config P)) (r : ModuleRef) (stream : Option StreamRef) (n : Int) :
    profile (w.setInput r stream n) = profile w := by
  cases found : w.modules r with
  | none => rw [Net.setInput_of_none found]
  | some m =>
    obtain ⟨_, same⟩ | ⟨port, _, ⟨_, same⟩ | ⟨s, _, _, same⟩⟩ := Net.setInput_cases found stream n
    · rw [same, setError_profile]
    · rw [same, relink_profile]
    · rw [same, setError_profile, relink_profile]

/-! ### Requests -/

theorem removeObserversLoop_keeps (s : StreamRef) (fuel : Nat) (w : Net (Config P)) :
    profile (Net.removeObserversLoop s fuel w) = profile w ∧
      (Net.removeObserversLoop s fuel w).elements = w.elements := by
  induction fuel generalizing w with
  | zero => exact ⟨rfl, rfl⟩
  | succ fuel ih =>
    unfold Net.removeObserversLoop
    split
    · exact ⟨rfl, rfl⟩
    · obtain ⟨profiles, elements⟩ := ih (w.setInput _ none _)
      exact ⟨profiles.trans (setInput_profile ..), elements.trans (Net.setInput_elements ..)⟩

theorem removeObservers_keeps (w : Net (Config P)) (s : StreamRef) :
    profile (w.removeObservers s) = profile w ∧ (w.removeObservers s).elements = w.elements :=
  removeObserversLoop_keeps s _ w

theorem disconnectOutputs_keeps (r : ModuleRef) (count : Nat) (w : Net (Config P)) :
    profile (Net.disconnectOutputs r count w) = profile w ∧ (Net.disconnectOutputs r count w).elements = w.elements := by
  unfold Net.disconnectOutputs
  induction count with
  | zero => exact ⟨rfl, rfl⟩
  | succ count ih =>
    rw [List.range_succ, List.foldl_append]
    obtain ⟨profiles, elements⟩ := removeObservers_keeps
      ((List.range count).foldl (fun w i => w.removeObservers ⟨r, i⟩) w) ⟨r, count⟩
    exact ⟨profiles.trans ih.1, elements.trans ih.2⟩

theorem Kept.allocate (kept : Kept w) (m : Module (Config P)) (elements : List ModuleRef)
    (old : ∀ r, r ≠ w.next → (r ∈ elements ↔ r ∈ w.elements)) (internal : m.isInternal = true ↔ w.next ∉ elements)
    (declared : w.next ∈ elements → m.inputs.map (·.type) = m.state.type.inputs ∧ m.outputs = m.state.type.outputs) :
    Kept { w.allocate m with elements } := by
  intro r inputs outputs hidden type h
  change (Function.update w.modules w.next (some m) r).map _ = _ at h
  by_cases new : r = w.next
  · subst new
    rw [Function.update_self] at h
    cases h
    exact ⟨internal, declared⟩
  · rw [Function.update_of_ne new] at h
    obtain ⟨known, ports⟩ := kept r inputs outputs hidden type h
    rw [← old r new] at known ports
    exact ⟨known, ports⟩

theorem Kept.delete (kept : Kept w) (elements : List ModuleRef)
    (others : ∀ x, x ≠ r → (x ∈ elements ↔ x ∈ w.elements)) : Kept { w.delete r with elements } := by
  intro x inputs outputs hidden type h
  change (Function.update w.modules r none x).map _ = _ at h
  by_cases gone : x = r
  · subst gone
    rw [Function.update_self] at h
    cases h
  · rw [Function.update_of_ne gone] at h
    obtain ⟨known, ports⟩ := kept x inputs outputs hidden type h
    rw [← others x gone] at known ports
    exact ⟨known, ports⟩

def Registered : Net.Event (Config P) → Prop
  | .create spec => spec = spec.state.type.spec P spec.state
  | _ => True

theorem build_types (spec : ModuleSpec (Config P)) : spec.build.inputs.map (·.type) = spec.inputs := by
  rw [ModuleSpec.build, List.map_map]
  exact List.map_id _

theorem next_not_mem (wired : w.Wiring ∅) : w.next ∉ w.elements := by
  intro inside
  exact wired.element _ inside (Net.shape_eq_none.mpr (wired.fresh _ (Nat.le_refl _)))

theorem step_kept (wired : w.Wiring ∅) (kept : Kept w) {event : Net.Event (Config P)} (registered : Registered event) :
    Kept (w.step event) := by
  have fresh := next_not_mem wired
  cases event with
  | create spec =>
    have made : spec = spec.state.type.spec P spec.state := registered
    refine kept.allocate spec.build (w.elements ++ [w.next]) (fun r old => by simp [old]) (by simp [ModuleSpec.build])
      fun _ => ?_
    rw [build_types, made]
    exact ⟨rfl, rfl⟩
  | setInput r source n => exact kept.congr (setInput_profile ..) (Net.setInput_elements ..)
  | openStream r idx state =>
    change Kept (w.webPipelineStream r idx state)
    unfold Net.webPipelineStream
    split
    · split
      · exact kept
      · refine Kept.congr (w := w.allocate (streamModule w.next state)) ?_ (setInput_profile ..)
          (Net.setInput_elements ..)
        exact kept.allocate (streamModule w.next state) w.elements (fun _ _ => Iff.rfl)
          (by simp [streamModule, fresh]) fun inside => absurd inside fresh
    · exact kept
  | closeStream r =>
    change Kept (w.webPipelineStreamClose r)
    unfold Net.webPipelineStreamClose
    split
    · exact kept
    · have same := kept.congr (setInput_profile w r none 0) (Net.setInput_elements ..)
      exact same.delete (r := r) (w.setInput r none 0).elements fun _ _ => Iff.rfl
  | remove r =>
    change Kept (w.webPipelineRemove r)
    unfold Net.webPipelineRemove
    split
    · exact kept
    · rename_i m found
      split
      · obtain ⟨modules, elements, _⟩ := Net.disconnectInputs_frame r m.inputs w
        have first : Kept (Net.disconnectInputs r m.inputs w) := by
          refine kept.congr ?_ elements
          unfold profile
          rw [modules]
        obtain ⟨profiles, elements'⟩ := disconnectOutputs_keeps r m.getOutputCount (Net.disconnectInputs r m.inputs w)
        apply (first.congr profiles elements').delete _
        intro x other
        exact List.mem_erase_of_ne other
      · exact kept

theorem run_pipeline {events : List (Net.Event (Config P))} (registered : ∀ event ∈ events, Registered event) :
    Pipeline (Machine.run Net.step Net.empty events) := by
  have guarded : Machine.Guarded Net.step (fun _ event => Registered event) Net.empty events := by
    generalize (Net.empty : Net (Config P)) = start
    induction events generalizing start with
    | nil => trivial
    | cons event rest ih =>
      exact ⟨registered event List.mem_cons_self,
        ih (fun e later => registered e (List.mem_cons_of_mem _ later)) (start.step event)⟩
  refine pipeline_iff.mpr (Machine.guarded_invariant (I := fun w => w.Wiring ∅ ∧ Kept w)
    (fun w event ok both => ⟨both.1.step event, step_kept both.1 both.2 ok⟩) ⟨Net.Wiring.empty, ?_⟩ guarded)
  intro r inputs outputs internal type h
  cases h

end Movid.Preset
