import Mathlib.Data.Set.Insert
import Movid.Graph.Requests
import Movid.Lib.Lists

/-!
# The invariant of the connections

`Wiring` says that the two records of every connection agree. While a module is being
removed its observer entries are gone although its slots still point to streams, so the
invariant has a set of modules it does not speak about.
-/

namespace Movid.Net

variable {α : Type} {w : Net α} {r : ModuleRef} {s : StreamRef}

/-- What a live module keeps for good: the number of its inputs and the formats of its outputs. -/
def shape (w : Net α) (r : ModuleRef) : Option (Nat × List Str) :=
  (w.modules r).map fun m => (m.inputs.length, m.outputs)

def IsOutput (w : Net α) (s : StreamRef) : Prop :=
  ∃ inputs outputs, w.shape s.owner = some (inputs, outputs) ∧ s.idx < outputs.length

def slotCount (w : Net α) (r : ModuleRef) (s : StreamRef) : Nat :=
  ((w.modules r).map fun m => m.inputs.countP (·.stream == some s)).getD 0

structure Wiring (gone : Set ModuleRef) (w : Net α) : Prop where
  count : ∀ s r, w.IsOutput s → r ∉ gone → (w.observers s).count r = w.slotCount r s
  absent : ∀ s r, w.IsOutput s → r ∈ gone → r ∉ w.observers s
  slot : ∀ r s, r ∉ gone → 0 < w.slotCount r s → w.IsOutput s ∨ (s.owner = r ∧ r ∉ w.elements)
  element : ∀ r ∈ w.elements, w.shape r ≠ none
  nodup : w.elements.Nodup
  outside : ∀ r shape, w.shape r = some shape → r ∉ w.elements → shape = (1, [])
  fresh : ∀ r, w.next ≤ r → w.modules r = none
  unobserved : ∀ s, ¬w.IsOutput s → (w.next ≤ s.owner ∨ w.shape s.owner ≠ none) → w.observers s = []

theorem slotCount_of_some {m : Module α} (h : w.modules r = some m) :
    w.slotCount r s = m.inputs.countP (·.stream == some s) := by simp [slotCount, h]

theorem slotCount_of_none (h : w.modules r = none) : w.slotCount r s = 0 := by simp [slotCount, h]

theorem shape_eq_none : w.shape r = none ↔ w.modules r = none := Option.map_eq_none_iff

theorem isOutput_congr {v : Net α} (shape : v.shape = w.shape) : v.IsOutput s ↔ w.IsOutput s := by
  unfold IsOutput
  rw [shape]

theorem modules_congr {v : Net α} (shape : v.shape = w.shape) :
    v.modules r = none ↔ w.modules r = none := by
  rw [← shape_eq_none, ← shape_eq_none, shape]

theorem Wiring.congr {gone : Set ModuleRef} {v : Net α} (wired : w.Wiring gone)
    (observers : v.observers = w.observers) (elements : v.elements = w.elements) (next : v.next = w.next)
    (shape : v.shape = w.shape) (slots : ∀ r s, v.slotCount r s = w.slotCount r s) : v.Wiring gone where
  count s r output kept := by rw [observers, slots]; exact wired.count s r ((isOutput_congr shape).mp output) kept
  absent s r output left := by rw [observers]; exact wired.absent s r ((isOutput_congr shape).mp output) left
  slot r s kept used := by
    rw [slots] at used
    rw [elements, isOutput_congr shape]
    exact wired.slot r s kept used
  element := by rw [elements, shape]; exact wired.element
  nodup := by rw [elements]; exact wired.nodup
  outside := by rw [elements, shape]; exact wired.outside
  fresh r beyond := (modules_congr shape).mpr (wired.fresh r (next ▸ beyond))
  unobserved s notOutput place := by
    rw [isOutput_congr shape] at notOutput
    rw [next, shape] at place
    rw [observers]
    exact wired.unobserved s notOutput place

/-! ### Changing one module -/

theorem setSlot_types (m : Module α) (n : Nat) (new : Option StreamRef) :
    (m.setSlot n new).inputs.map (·.type) = m.inputs.map (·.type) := by
  refine List.ext_getElem? fun i => ?_
  rw [Module.setSlot, List.getElem?_map, List.getElem?_map, List.getElem?_modify]
  cases m.inputs[i]? with
  | none => rfl
  | some port => by_cases here : n = i <;> simp [here]

theorem updateModule_modules (w : Net α) (r x : ModuleRef) (f : Module α → Module α) :
    (w.updateModule r f).modules x = if x = r then (w.modules r).map f else w.modules x := by
  simp only [updateModule, Function.update_apply]

theorem updateModule_shape (w : Net α) (r : ModuleRef) {f : Module α → Module α}
    (inputs : ∀ m, (f m).inputs.length = m.inputs.length) (outputs : ∀ m, (f m).outputs = m.outputs) :
    (w.updateModule r f).shape = w.shape := by
  funext x
  unfold shape
  rw [updateModule_modules]
  split
  · rename_i same
    rw [same]
    cases w.modules r <;> simp [inputs, outputs]
  · rfl

theorem updateModule_slotCount (w : Net α) (r : ModuleRef) {f : Module α → Module α}
    (keeps : ∀ m, (f m).inputs = m.inputs) (x : ModuleRef) (s : StreamRef) :
    (w.updateModule r f).slotCount x s = w.slotCount x s := by
  unfold slotCount
  rw [updateModule_modules]
  split
  · rename_i same
    rw [same]
    cases w.modules r <;> simp [keeps]
  · rfl

theorem setError_shape (w : Net α) (r : ModuleRef) (msg : Str) : (w.setError r msg).shape = w.shape :=
  updateModule_shape w r (fun _ => rfl) (fun _ => rfl)

theorem Wiring.setError {gone : Set ModuleRef} (wired : w.Wiring gone) (r : ModuleRef) (msg : Str) :
    (w.setError r msg).Wiring gone :=
  wired.congr rfl rfl rfl (setError_shape w r msg) (updateModule_slotCount w r fun _ => rfl)

/-! ### Moving one slot -/

/-- Slot `n` of `r` moves from `old` to `new`, and so does the observer entry. -/
def relink (w : Net α) (r : ModuleRef) (n : Nat) (old new : Option StreamRef) : Net α :=
  let w := (w.detach old r).setSlot r n new
  match new with
  | some s => w.addObserver s r
  | none => w

theorem relink_modules (w : Net α) (r : ModuleRef) (n : Nat) (old new : Option StreamRef) :
    (w.relink r n old new).modules = (w.setSlot r n new).modules := by
  cases old <;> cases new <;> rfl

theorem relink_elements (w : Net α) (r : ModuleRef) (n : Nat) (old new : Option StreamRef) :
    (w.relink r n old new).elements = w.elements := by cases old <;> cases new <;> rfl

theorem relink_next (w : Net α) (r : ModuleRef) (n : Nat) (old new : Option StreamRef) :
    (w.relink r n old new).next = w.next := by cases old <;> cases new <;> rfl

theorem relink_observers (w : Net α) (r : ModuleRef) (n : Nat) (old new : Option StreamRef) (s : StreamRef) :
    (w.relink r n old new).observers s =
      (if old = some s then (w.observers s).erase r else w.observers s) ++
        (if new = some s then [r] else []) := by
  cases old with
  | none =>
    cases new with
    | none => simp [relink, detach, setSlot, Net.updateModule]
    | some t =>
      by_cases h : t = s
      · simp [relink, detach, setSlot, Net.updateModule, addObserver, h]
      · simp [relink, detach, setSlot, Net.updateModule, addObserver, h, Function.update_of_ne (Ne.symm h)]
  | some o =>
    have erased : (w.removeObserver o r).observers s =
        if o = s then (w.observers s).erase r else w.observers s := by
      by_cases h : o = s
      · simp [removeObserver, h]
      · simp [removeObserver, h, Function.update_of_ne (Ne.symm h)]
    cases new with
    | none => simpa [relink, detach, setSlot, Net.updateModule] using erased
    | some t =>
      have added : (w.relink r n (some o) (some t)).observers s =
          (w.removeObserver o r).observers s ++ if t = s then [r] else [] := by
        by_cases h : t = s
        · simp [relink, detach, setSlot, Net.updateModule, addObserver, h]
        · simp [relink, detach, setSlot, Net.updateModule, addObserver, h, Function.update_of_ne (Ne.symm h)]
      rw [added, erased]
      simp

theorem relink_shape (w : Net α) (r : ModuleRef) (n : Nat) (old new : Option StreamRef) :
    (w.relink r n old new).shape = w.shape := by
  have slot : (w.setSlot r n new).shape = w.shape :=
    updateModule_shape w r (fun m => List.length_modify ..) (fun _ => rfl)
  rw [← slot]
  unfold shape
  rw [relink_modules]

theorem relink_isOutput (w : Net α) (r : ModuleRef) (n : Nat) (old new : Option StreamRef) (s : StreamRef) :
    (w.relink r n old new).IsOutput s ↔ w.IsOutput s := isOutput_congr (relink_shape w r n old new)

theorem relink_slotCount_of_ne (w : Net α) {r x : ModuleRef} (other : x ≠ r) (n : Nat)
    (old new : Option StreamRef) (s : StreamRef) :
    (w.relink r n old new).slotCount x s = w.slotCount x s := by
  unfold slotCount
  rw [relink_modules, setSlot, updateModule_modules, if_neg other]

theorem relink_slotCount_self {m : Module α} {port : InputPort} {n : Nat} (found : w.modules r = some m)
    (slot : m.inputs[n]? = some port) (new : Option StreamRef) (s : StreamRef) :
    (w.relink r n port.stream new).slotCount r s + (port.stream == some s).toNat =
      w.slotCount r s + (new == some s).toNat := by
  have changed : (w.relink r n port.stream new).modules r = some (m.setSlot n new) := by
    rw [relink_modules, setSlot, updateModule_modules, if_pos rfl, found]
    rfl
  rw [slotCount_of_some changed, slotCount_of_some found]
  exact Lists.countP_modify (fun p => p.stream == some s) _ slot

theorem slotCount_pos {m : Module α} {port : InputPort} {n : Nat} (found : w.modules r = some m)
    (slot : m.inputs[n]? = some port) (points : port.stream = some s) : 0 < w.slotCount r s := by
  rw [slotCount_of_some found]
  exact Lists.countP_pos_of_getElem? slot (by simp [points])

theorem relink_count_of_ne (w : Net α) {x r : ModuleRef} (other : x ≠ r) (n : Nat) (old new : Option StreamRef) (s : StreamRef) :
    ((w.relink r n old new).observers s).count x = (w.observers s).count x := by
  have erased : ((if old = some s then (w.observers s).erase r else w.observers s).count x) = (w.observers s).count x := by
    split
    · exact List.count_erase_of_ne other
    · rfl
  have added : ((if new = some s then [r] else []).count x) = 0 := by
    split
    · simp [Ne.symm other]
    · rfl
  rw [relink_observers, List.count_append, erased, added, Nat.add_zero]

/-- The entry that `erase` takes off is there when the slot was counted. -/
theorem relink_count_self (w : Net α) (r : ModuleRef) (n : Nat) {old : Option StreamRef} (new : Option StreamRef) {s : StreamRef}
    (counted : old = some s → 0 < (w.observers s).count r) :
    ((w.relink r n old new).observers s).count r + (old == some s).toNat =
      (w.observers s).count r + (new == some s).toNat := by
  have erased : ((if old = some s then (w.observers s).erase r else w.observers s).count r) + (old == some s).toNat =
      (w.observers s).count r := by
    by_cases points : old = some s
    · have used := counted points
      simp only [points, if_true, List.count_erase_self, beq_self_eq_true, Bool.toNat_true]
      omega
    · simp [points]
  have added : ((if new = some s then [r] else []).count r) = (new == some s).toNat := by
    by_cases points : new = some s
    · simp [points]
    · simp [points, beq_eq_false_iff_ne.mpr points]
  rw [relink_observers, List.count_append]
  omega

theorem Wiring.relink {gone : Set ModuleRef} (wired : w.Wiring gone) {m : Module α} {port : InputPort}
    {n : Nat} (found : w.modules r = some m) (slot : m.inputs[n]? = some port) (kept : r ∉ gone)
    {new : Option StreamRef} (target : ∀ s, new = some s → w.IsOutput s) :
    (w.relink r n port.stream new).Wiring gone where
  count s x output inside := by
    rw [relink_isOutput] at output
    have before := wired.count s x output inside
    by_cases same : x = r
    · subst same
      have slots := relink_slotCount_self found slot new s
      have entries := relink_count_self w x n new fun points => before ▸ slotCount_pos found slot points
      omega
    · rw [relink_count_of_ne w same, relink_slotCount_of_ne w same]
      exact before
  absent s x output left := by
    rw [relink_isOutput] at output
    have before := wired.absent s x output left
    rw [relink_observers, List.mem_append, not_or]
    constructor
    · split
      · exact fun member => before (List.mem_of_mem_erase member)
      · exact before
    · split
      · intro member
        obtain rfl := List.mem_singleton.mp member
        exact kept left
      · simp
  slot x s inside used := by
    rw [relink_isOutput, relink_elements]
    by_cases same : x = r
    · subst same
      by_cases points : new = some s
      · exact Or.inl (target s points)
      · have slots := relink_slotCount_self found slot new s
        simp only [beq_eq_false_iff_ne.mpr points, Bool.toNat_false] at slots
        exact wired.slot x s inside (by omega)
    · rw [relink_slotCount_of_ne w same] at used
      exact wired.slot x s inside used
  element x member := by
    rw [relink_elements] at member
    rw [relink_shape]
    exact wired.element x member
  nodup := by rw [relink_elements]; exact wired.nodup
  outside x shape := by rw [relink_shape, relink_elements]; exact wired.outside x shape
  fresh x beyond := by
    rw [relink_next] at beyond
    exact (modules_congr (relink_shape ..)).mpr (wired.fresh x beyond)
  unobserved s notOutput where_ := by
    rw [relink_isOutput] at notOutput
    rw [relink_next, relink_shape] at where_
    have other : new ≠ some s := fun points => notOutput (target s points)
    rw [relink_observers, wired.unobserved s notOutput where_]
    simp [other]

/-! ### `setInput` -/

/-- What a call of `setInput` on a live module can do. -/
theorem setInput_cases {m : Module α} (found : w.modules r = some m) (stream : Option StreamRef) (n : Int) :
    (m.inputPort n = none ∧ w.setInput r stream n = w.setError r "Invalid input index".toList) ∨
    ∃ port, m.inputPort n = some port ∧
      (((∀ s, stream = some s → port.isStreamValid (w.getFormat s) = true) ∧
          w.setInput r stream n = w.relink r n.toNat port.stream stream) ∨
        ∃ s, stream = some s ∧ port.isStreamValid (w.getFormat s) = false ∧
          w.setInput r stream n =
            (w.relink r n.toNat port.stream none).setError r (rejected n port.type (w.getFormat s))) := by
  cases at_n : m.inputPort n with
  | none => exact Or.inl ⟨rfl, by simp only [setInput, found, at_n]⟩
  | some port =>
    refine Or.inr ⟨port, rfl, ?_⟩
    have format (s : StreamRef) : (w.detach port.stream r).getFormat s = w.getFormat s := by
      cases port.stream <;> rfl
    cases stream with
    | none =>
      refine Or.inl ⟨by simp, ?_⟩
      simp only [setInput, found, at_n, Net.relink]
    | some s =>
      cases valid : port.isStreamValid (w.getFormat s) with
      | true =>
        refine Or.inl ⟨fun t same => by cases same; exact valid, ?_⟩
        simp only [setInput, found, at_n, Net.relink, format, valid, if_true]
      | false =>
        refine Or.inr ⟨s, rfl, valid, ?_⟩
        simp only [setInput, found, at_n, Net.relink, format, valid, Bool.false_eq_true, if_false]

theorem setInput_of_none (dead : w.modules r = none) (stream : Option StreamRef) (n : Int) :
    w.setInput r stream n = w := by simp only [setInput, dead]

theorem inputPort_eq_some {m : Module α} {n : Int} {port : InputPort} (h : m.inputPort n = some port) :
    m.inputs[n.toNat]? = some port := by
  unfold Module.inputPort at h
  split at h
  · exact h
  · cases h

theorem setInput_elements (w : Net α) (r : ModuleRef) (stream : Option StreamRef) (n : Int) :
    (w.setInput r stream n).elements = w.elements := by
  cases found : w.modules r with
  | none => rw [setInput_of_none found]
  | some m =>
    obtain ⟨_, same⟩ | ⟨port, _, ⟨_, same⟩ | ⟨s, _, _, same⟩⟩ := setInput_cases found stream n <;>
      rw [same] <;> first | rfl | exact relink_elements ..

theorem setInput_next (w : Net α) (r : ModuleRef) (stream : Option StreamRef) (n : Int) :
    (w.setInput r stream n).next = w.next := by
  cases found : w.modules r with
  | none => rw [setInput_of_none found]
  | some m =>
    obtain ⟨_, same⟩ | ⟨port, _, ⟨_, same⟩ | ⟨s, _, _, same⟩⟩ := setInput_cases found stream n <;>
      rw [same] <;> first | rfl | exact relink_next ..

theorem setInput_shape (w : Net α) (r : ModuleRef) (stream : Option StreamRef) (n : Int) :
    (w.setInput r stream n).shape = w.shape := by
  cases found : w.modules r with
  | none => rw [setInput_of_none found]
  | some m =>
    obtain ⟨_, same⟩ | ⟨port, _, ⟨_, same⟩ | ⟨t, _, _, same⟩⟩ := setInput_cases found stream n
    · rw [same, setError_shape]
    · rw [same, relink_shape]
    · rw [same, setError_shape, relink_shape]

/-- Every way through `setInput` keeps the invariant, also a rejected connection. -/
theorem Wiring.setInput {gone : Set ModuleRef} (wired : w.Wiring gone) (kept : r ∉ gone)
    {stream : Option StreamRef} (target : ∀ s, stream = some s → w.IsOutput s) (n : Int) :
    (w.setInput r stream n).Wiring gone := by
  cases found : w.modules r with
  | none => rw [setInput_of_none found]; exact wired
  | some m =>
    obtain ⟨_, same⟩ | ⟨port, at_n, ⟨_, same⟩ | ⟨s, _, _, same⟩⟩ := setInput_cases found stream n
    · rw [same]
      exact wired.setError r _
    · rw [same]
      exact wired.relink found (inputPort_eq_some at_n) kept target
    · rw [same]
      exact (wired.relink found (inputPort_eq_some at_n) kept (by simp)).setError r _

theorem setInput_modules_of_ne (w : Net α) {r x : ModuleRef} (other : x ≠ r) (stream : Option StreamRef) (n : Int) :
    (w.setInput r stream n).modules x = w.modules x := by
  cases found : w.modules r with
  | none => rw [setInput_of_none found]
  | some m =>
    obtain ⟨_, same⟩ | ⟨port, _, ⟨_, same⟩ | ⟨s, _, _, same⟩⟩ := setInput_cases found stream n <;> rw [same]
    · rw [Net.setError, updateModule_modules, if_neg other]
    · rw [relink_modules, setSlot, updateModule_modules, if_neg other]
    · rw [Net.setError, updateModule_modules, if_neg other, relink_modules, setSlot, updateModule_modules,
        if_neg other]

theorem setInput_modules_self {m : Module α} (found : w.modules r = some m) (stream : Option StreamRef) (n : Int) :
    ∃ m', (w.setInput r stream n).modules r = some m' ∧ m'.state = m.state ∧ m'.outputs = m.outputs ∧
      ((m.inputPort n = none ∧ m'.inputs = m.inputs) ∨
        ∃ port new, m.inputPort n = some port ∧ m'.inputs = (m.setSlot n.toNat new).inputs ∧
          ((∀ s, stream = some s → port.isStreamValid (w.getFormat s) = true) → new = stream) ∧
          ∀ s, new = some s → stream = some s ∧ port.isStreamValid (w.getFormat s) = true) := by
  obtain ⟨bad, same⟩ | ⟨port, at_n, ⟨valid, same⟩ | ⟨s, given, invalid, same⟩⟩ := setInput_cases found stream n <;>
    rw [same]
  · refine ⟨m.setError "Invalid input index".toList, ?_, rfl, rfl, Or.inl ⟨bad, rfl⟩⟩
    rw [Net.setError, updateModule_modules, if_pos rfl, found]
    rfl
  · refine ⟨m.setSlot n.toNat stream, ?_, rfl, rfl,
      Or.inr ⟨port, stream, at_n, rfl, fun _ => rfl, fun s given => ⟨given, valid s given⟩⟩⟩
    rw [relink_modules, setSlot, updateModule_modules, if_pos rfl, found]
    rfl
  · refine ⟨(m.setSlot n.toNat none).setError (rejected n port.type (w.getFormat s)), ?_, rfl, rfl,
      Or.inr ⟨port, none, at_n, rfl, fun valid => ?_, fun _ none => (by cases none)⟩⟩
    · rw [Net.setError, updateModule_modules, if_pos rfl, relink_modules, setSlot, updateModule_modules, if_pos rfl,
        found]
      rfl
    · rw [valid s given] at invalid
      cases invalid

theorem getOutput_isOutput {k : ModuleRef} {i : Int} (h : w.getOutput k i = some s) : w.IsOutput s := by
  unfold getOutput at h
  split at h
  · rename_i m found
    split at h
    · rename_i inside
      cases h
      exact ⟨m.inputs.length, m.outputs, by simp [shape, found], inside.2⟩
    · cases h
  · cases h

end Movid.Net
