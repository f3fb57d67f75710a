import Movid.Graph.Removal

/-!
# Inputs hold what they accept

`setInput` checks the format of the stream, and neither the type of an input nor the format of a
stream changes after the constructor.
-/

namespace Movid.Net

variable {α : Type} {w : Net α} {r : ModuleRef}

/-- Every module has the ports that go with its state, and every connected input accepts its
stream. -/
structure Typed (inputs outputs : α → List Str) (w : Net α) : Prop where
  fresh : ∀ r, w.next ≤ r → w.modules r = none
  ports : ∀ r m, w.modules r = some m → m.inputs.map (·.type) = inputs m.state ∧ m.outputs = outputs m.state
  slots : ∀ r m, w.modules r = some m → ∀ port ∈ m.inputs, ∀ s, port.stream = some s →
    w.modules s.owner ≠ none ∧ port.isStreamValid (w.getFormat s) = true

variable {inputs outputs : α → List Str}

theorem Typed.empty (inputs outputs : α → List Str) : Typed inputs outputs (Net.empty : Net α) :=
  ⟨fun _ _ => rfl, fun _ _ h => (by cases h), fun _ _ h => by cases h⟩

theorem updateModule_live {f : Module α → Module α} {x : ModuleRef} :
    (w.updateModule r f).modules x = none ↔ w.modules x = none := by
  rw [updateModule_modules]
  split
  · rename_i same
    rw [same, Option.map_eq_none_iff]
  · rfl

theorem updateModule_getFormat {f : Module α → Module α} (keeps : ∀ m, (f m).outputs = m.outputs) (s : StreamRef) :
    (w.updateModule r f).getFormat s = w.getFormat s := by
  unfold getFormat
  rw [updateModule_modules]
  split
  · rename_i same
    rw [same]
    cases w.modules r with
    | none => rfl
    | some m => rw [Option.map_some, Option.bind_some, Option.bind_some, keeps]
  · rfl

theorem updateState_getFormat (w : Net α) (r : ModuleRef) (f : α → α) (s : StreamRef) :
    (w.updateModule r fun m => { m with state := f m.state }).getFormat s = w.getFormat s := by
  apply updateModule_getFormat
  exact fun _ => rfl

theorem Typed.congr (typed : Typed inputs outputs w) {v : Net α} (next : v.next = w.next)
    (same : ∀ r m, v.modules r = some m → ∃ old, w.modules r = some old ∧ m.inputs = old.inputs ∧ m.outputs = old.outputs ∧
      inputs m.state = inputs old.state ∧ outputs m.state = outputs old.state)
    (dead : ∀ r, v.modules r = none → w.modules r = none) : Typed inputs outputs v := by
  have format (s : StreamRef) : v.getFormat s = w.getFormat s := by
    unfold getFormat
    cases found : v.modules s.owner with
    | none => rw [dead _ found]
    | some m =>
      obtain ⟨old, before, -, outs, -⟩ := same _ m found
      rw [before, Option.bind_some, Option.bind_some, outs]
  refine ⟨fun r beyond => ?_, fun r m found => ?_, fun r m found port member s points => ?_⟩
  · cases found : v.modules r with
    | none => rfl
    | some m =>
      obtain ⟨old, before, -⟩ := same r m found
      rw [typed.fresh r (next ▸ beyond)] at before
      cases before
  · obtain ⟨old, before, ins, outs, types, formats⟩ := same r m found
    rw [ins, outs, types, formats]
    exact typed.ports r old before
  · obtain ⟨old, before, ins, -⟩ := same r m found
    rw [ins] at member
    obtain ⟨live, valid⟩ := typed.slots r old before port member s points
    exact ⟨fun gone => live (dead _ gone), by rw [format]; exact valid⟩

theorem Typed.updateState (typed : Typed inputs outputs w) (r : ModuleRef) {f : α → α}
    (keeps : ∀ m, w.modules r = some m → inputs (f m.state) = inputs m.state ∧ outputs (f m.state) = outputs m.state) :
    Typed inputs outputs (w.updateModule r fun m => { m with state := f m.state }) := by
  refine typed.congr rfl (fun x m found => ?_) fun x gone => ?_
  · rw [updateModule_modules] at found
    split at found
    · rename_i same
      subst same
      obtain ⟨old, before, rfl⟩ := Option.map_eq_some_iff.mp found
      exact ⟨old, before, rfl, rfl, keeps old before⟩
    · exact ⟨m, found, rfl, rfl, rfl, rfl⟩
  · exact updateModule_live.mp gone

theorem create_modules (spec : ModuleSpec α) (x : ModuleRef) :
    (w.webPipelineCreate spec).modules x = if x = w.next then some spec.build else w.modules x := Function.update_apply ..

theorem create_getFormat {spec : ModuleSpec α} {s : StreamRef} (other : s.owner ≠ w.next) :
    (w.webPipelineCreate spec).getFormat s = w.getFormat s := by
  unfold getFormat
  rw [create_modules, if_neg other]

theorem Typed.create (typed : Typed inputs outputs w) (spec : ModuleSpec α) (types : spec.inputs = inputs spec.state)
    (formats : spec.outputs = outputs spec.state) : Typed inputs outputs (w.webPipelineCreate spec) := by
  have modules := create_modules (w := w) spec
  refine ⟨fun x beyond => ?_, fun x m found => ?_, fun x m found port member s points => ?_⟩
  · change w.next + 1 ≤ x at beyond
    rw [modules, if_neg (Nat.ne_of_gt beyond)]
    exact typed.fresh x (Nat.le_of_succ_le beyond)
  · rw [modules] at found
    split at found
    · cases found
      refine ⟨Eq.trans ?_ types, formats⟩
      simp [ModuleSpec.build, Function.comp_def]
    · exact typed.ports x m found
  · rw [modules] at found
    split at found
    · -- the inputs of a new module are NULL
      cases found
      obtain ⟨type, -, rfl⟩ := List.mem_map.mp member
      cases points
    · obtain ⟨live, valid⟩ := typed.slots x m found port member s points
      have other : s.owner ≠ w.next := fun same => live (typed.fresh _ (Nat.le_of_eq same.symm))
      rw [create_getFormat other, modules, if_neg other]
      exact ⟨live, valid⟩

theorem mem_setSlot {m : Module α} {n : Nat} {new : Option StreamRef} {port : InputPort}
    (member : port ∈ (m.setSlot n new).inputs) :
    port ∈ m.inputs ∨ ∃ old, m.inputs[n]? = some old ∧ port = { old with stream := new } := by
  obtain ⟨i, here⟩ := List.mem_iff_getElem?.mp member
  unfold Module.setSlot at here
  by_cases same : n = i
  · subst same
    rw [List.getElem?_modify_eq] at here
    obtain ⟨old, found, rfl⟩ := Option.map_eq_some_iff.mp here
    exact Or.inr ⟨old, found, rfl⟩
  · rw [List.getElem?_modify_ne _ _ same] at here
    exact Or.inl (List.mem_of_getElem? here)

theorem setInput_getFormat (w : Net α) (r : ModuleRef) (stream : Option StreamRef) (n : Int) (s : StreamRef) :
    (w.setInput r stream n).getFormat s = w.getFormat s := by
  unfold getFormat
  by_cases same : s.owner = r
  · cases found : w.modules r with
    | none => rw [setInput_of_none found]
    | some m =>
      obtain ⟨m', after, -, outs, -⟩ := setInput_modules_self found stream n
      rw [same, after, found, Option.bind_some, Option.bind_some, outs]
  · rw [setInput_modules_of_ne w same]

theorem setInput_live (w : Net α) (r : ModuleRef) (stream : Option StreamRef) (n : Int) (x : ModuleRef) :
    (w.setInput r stream n).modules x = none ↔ w.modules x = none := modules_congr (setInput_shape w r stream n)

theorem getOutput_live {k : ModuleRef} {i : Int} {s : StreamRef} (found : w.getOutput k i = some s) :
    w.modules s.owner ≠ none := by
  unfold getOutput at found
  split at found
  · rename_i m live
    split at found
    · cases found
      rw [live]
      exact Option.some_ne_none m
    · cases found
  · cases found

theorem Typed.setInput (typed : Typed inputs outputs w) (r : ModuleRef) {stream : Option StreamRef}
    (target : ∀ s, stream = some s → w.modules s.owner ≠ none) (n : Int) : Typed inputs outputs (w.setInput r stream n) := by
  refine ⟨fun x beyond => ?_, fun x m found => ?_, fun x m found port member s points => ?_⟩
  · rw [setInput_next] at beyond
    exact (setInput_live ..).mpr (typed.fresh x beyond)
  · by_cases same : x = r
    · subst same
      cases before : w.modules x with
      | none =>
        rw [(setInput_live ..).mpr before] at found
        cases found
      | some old =>
        obtain ⟨m', after, state, outs, slots⟩ := setInput_modules_self before stream n
        obtain rfl : m' = m := Option.some.inj (after.symm.trans found)
        obtain ⟨types, formats⟩ := typed.ports x old before
        rw [state, outs]
        refine ⟨?_, formats⟩
        rcases slots with ⟨-, ins⟩ | ⟨_, new, -, ins, -⟩
        · rw [ins, types]
        · rw [ins, setSlot_types, types]
    · rw [setInput_modules_of_ne w same] at found
      exact typed.ports x m found
  · rw [setInput_getFormat, ne_eq, setInput_live]
    by_cases same : x = r
    · subst same
      cases before : w.modules x with
      | none =>
        rw [(setInput_live ..).mpr before] at found
        cases found
      | some old =>
        obtain ⟨m', after, -, -, slots⟩ := setInput_modules_self before stream n
        obtain rfl : m' = m := Option.some.inj (after.symm.trans found)
        rcases slots with ⟨-, ins⟩ | ⟨taken, new, at_n, ins, -, accepted⟩
        · rw [ins] at member
          exact typed.slots x old before port member s points
        · rw [ins] at member
          rcases mem_setSlot member with kept | ⟨slot, here, rfl⟩
          · exact typed.slots x old before port kept s points
          · obtain rfl : taken = slot := Option.some.inj ((inputPort_eq_some at_n).symm.trans here)
            obtain ⟨given, valid⟩ := accepted s points
            exact ⟨target s given, valid⟩
    · rw [setInput_modules_of_ne w same] at found
      exact typed.slots x m found port member s points

/-! ### The request -/

theorem step_setInput (w : Net α) (r : ModuleRef) (source : Option (ModuleRef × Int)) (n : Int) :
    ∃ stream, w.step (.setInput r source n) = w.setInput r stream n ∧ ∀ s, stream = some s → w.modules s.owner ≠ none := by
  refine ⟨_, rfl, fun s given => ?_⟩
  obtain ⟨⟨k, i⟩, -, found⟩ := Option.bind_eq_some_iff.mp given
  exact getOutput_live found

theorem Typed.connect (typed : Typed inputs outputs w) (r : ModuleRef) (source : Option (ModuleRef × Int)) (n : Int) :
    Typed inputs outputs (w.step (.setInput r source n)) := by
  obtain ⟨stream, step, target⟩ := step_setInput w r source n
  rw [step]
  exact typed.setInput r target n

theorem connect_getFormat (w : Net α) (r : ModuleRef) (source : Option (ModuleRef × Int)) (n : Int) (s : StreamRef) :
    (w.step (.setInput r source n)).getFormat s = w.getFormat s := by
  obtain ⟨stream, step, -⟩ := step_setInput w r source n
  rw [step, setInput_getFormat]

theorem connect_live {source : Option (ModuleRef × Int)} {n : Int} {x : ModuleRef} :
    (w.step (.setInput r source n)).modules x = none ↔ w.modules x = none := by
  obtain ⟨stream, step, -⟩ := step_setInput w r source n
  rw [step, setInput_live]

theorem connect_state {source : Option (ModuleRef × Int)} {n : Int} {x : ModuleRef} {m : Module α}
    (found : (w.step (.setInput r source n)).modules x = some m) : ∃ old, w.modules x = some old ∧ old.state = m.state := by
  obtain ⟨stream, step, -⟩ := step_setInput w r source n
  rw [step] at found
  have states := congrFun (setInput_state w r stream n) x
  unfold state at states
  rw [found] at states
  exact Option.map_eq_some_iff.mp states.symm

end Movid.Net
