import Movid.Graph.Removal

/-!
# Taking all observers off a stream

`removeObservers` starts over after each input that it clears, because that changes the list it goes through. Where
the two records of the connections agree, the list gets shorter each time, and nothing but this stream is touched.
-/

namespace Movid

variable {α : Type}

/-- The two records of the connections agree, on every stream there may be. -/
def Net.Matched (w : Net α) : Prop := ∀ s r, (w.observers s).count r = w.slotCount r s

def InputPort.without (s : StreamRef) (port : InputPort) : InputPort :=
  if port.stream = some s then { port with stream := none } else port

/-- Every slot that points to `s` is NULL. -/
def Module.without (s : StreamRef) (m : Module α) : Module α := { m with inputs := m.inputs.map (·.without s) }

def Net.without (s : StreamRef) (w : Net α) : Net α :=
  { w with modules := fun r => (w.modules r).map (·.without s), observers := Function.update w.observers s [] }

namespace Net

variable {w : Net α} {r : ModuleRef} {s : StreamRef}

theorem Matched.relink (matched : w.Matched) {m : Module α} {port : InputPort} {n : Nat} (found : w.modules r = some m)
    (slot : m.inputs[n]? = some port) (new : Option StreamRef) : (w.relink r n port.stream new).Matched := by
  intro s x
  by_cases same : x = r
  · subst same
    have slots := relink_slotCount_self found slot new s
    have entries := relink_count_self w x n new fun points => matched s x ▸ slotCount_pos found slot points
    have before := matched s x
    omega
  · rw [relink_count_of_ne w same, relink_slotCount_of_ne w same]
    exact matched s x

theorem Matched.setError (matched : w.Matched) (r : ModuleRef) (msg : Str) : (w.setError r msg).Matched := by
  intro s x
  have slots := updateModule_slotCount w r (f := .setError msg) (fun _ => rfl) x s
  exact (matched s x).trans slots.symm

/-- Whatever stream is asked for. -/
theorem Matched.setInput (matched : w.Matched) (r : ModuleRef) (stream : Option StreamRef) (n : Int) : (w.setInput r stream n).Matched := by
  cases found : w.modules r with
  | none =>
    rw [setInput_of_none found]
    exact matched
  | some m =>
    obtain ⟨_, same⟩ | ⟨port, at_n, ⟨_, same⟩ | ⟨s, _, _, same⟩⟩ := setInput_cases found stream n
    · rw [same]
      exact matched.setError r _
    · rw [same]
      exact matched.relink found (inputPort_eq_some at_n) stream
    · rw [same]
      exact (matched.relink found (inputPort_eq_some at_n) none).setError r _

theorem slotCount_eq_zero : w.slotCount r s = 0 ↔ ∀ m, w.modules r = some m → ∀ port ∈ m.inputs, port.stream ≠ some s := by
  cases found : w.modules r with
  | none => simp [slotCount_of_none found]
  | some m => simp [slotCount_of_some found, List.countP_eq_zero]

theorem without_slotCount (w : Net α) (r : ModuleRef) (s : StreamRef) : (w.without s).slotCount r s = 0 := by
  rw [slotCount_eq_zero]
  intro m found port member points
  obtain ⟨m₀, -, rfl⟩ := Option.map_eq_some_iff.mp found
  obtain ⟨port₀, -, rfl⟩ := List.mem_map.mp member
  unfold InputPort.without at points
  split at points
  · cases points
  · rename_i other
    exact other points

theorem Module.without_of_unused {m : Module α} (unused : ∀ port ∈ m.inputs, port.stream ≠ some s) : m.without s = m := by
  have inputs : m.inputs.map (InputPort.without s) = m.inputs :=
    (List.map_congr_left fun port member => if_neg (unused port member)).trans (List.map_id' _)
  rw [Module.without, inputs]

/-- Clearing one of the slots first makes no difference. -/
theorem Module.without_setSlot {m : Module α} {port : InputPort} {i : Nat} (slot : m.inputs[i]? = some port)
    (points : port.stream = some s) : (m.setSlot i none).without s = m.without s := by
  have inputs : (m.setSlot i none).inputs.map (InputPort.without s) = m.inputs.map (InputPort.without s) := by
    refine List.ext_getElem? fun j => ?_
    rw [Module.setSlot, List.getElem?_map, List.getElem?_map, List.getElem?_modify]
    by_cases here : i = j
    · subst here
      simp [slot, InputPort.without, points]
    · simp [here]
  rw [Module.without, inputs]
  rfl

/-- Where nothing points to the stream, there is nothing to take off. -/
theorem without_of_unused (unused : ∀ r, w.slotCount r s = 0) (quiet : w.observers s = []) : w.without s = w := by
  have modules : (fun r => (w.modules r).map (Module.without s)) = w.modules := by
    funext r
    cases found : w.modules r with
    | none => rfl
    | some m => rw [Option.map_some, Module.without_of_unused (slotCount_eq_zero.mp (unused r) m found)]
  unfold without
  rw [modules, ← quiet, Function.update_eq_self]

theorem relink_without {m : Module α} {port : InputPort} {i : Nat} (found : w.modules r = some m)
    (slot : m.inputs[i]? = some port) (points : port.stream = some s) : (w.relink r i port.stream none).without s = w.without s := by
  have modules : (fun x => ((w.relink r i port.stream none).modules x).map (Module.without s)) =
      fun x => (w.modules x).map (Module.without s) := by
    funext x
    rw [relink_modules, setSlot, updateModule_modules]
    split
    · rename_i same
      rw [same, found, Option.map_some, Option.map_some, Module.without_setSlot slot points]
      rfl
    · rfl
  have observers : Function.update (w.relink r i port.stream none).observers s [] = Function.update w.observers s [] := by
    funext t
    by_cases here : t = s
    · rw [here, Function.update_self, Function.update_self]
    · rw [Function.update_of_ne here, Function.update_of_ne here, relink_observers, if_neg, if_neg (by simp), List.append_nil]
      rw [points]
      exact fun same => here (Option.some.inj same).symm
  unfold without
  rw [modules, observers, relink_elements, relink_next]

/-- Each round clears one input and takes one observer off, so as many rounds as there are observers take all of them off. -/
theorem removeObserversLoop_eq (matched : w.Matched) {fuel : Nat} (enough : (w.observers s).length ≤ fuel) :
    removeObserversLoop s fuel w = w.without s := by
  induction fuel generalizing w with
  | zero =>
    have quiet : w.observers s = [] := List.length_eq_zero_iff.mp (Nat.le_zero.mp enough)
    refine (without_of_unused (fun r => ?_) quiet).symm
    rw [← matched s r, quiet, List.count_nil]
  | succ fuel ih =>
    unfold removeObserversLoop
    cases first : w.firstObserving s with
    | none =>
      have detached := firstObserving_none first
      have unused (r : ModuleRef) : w.slotCount r s = 0 := by
        by_cases member : r ∈ w.observers s
        · exact detached r member
        · rw [← matched s r, List.count_eq_zero.mpr member]
      refine (without_of_unused unused (List.eq_nil_iff_forall_not_mem.mpr fun r member => ?_)).symm
      have counted := matched s r
      rw [unused r, List.count_eq_zero] at counted
      exact counted member
    | some found =>
      obtain ⟨r, i⟩ := found
      obtain ⟨member, m, port, live, slot, points⟩ := firstObserving_some first
      dsimp only
      rw [setInput_none_eq_relink live slot]
      have shorter : ((w.relink r i port.stream none).observers s).length ≤ fuel := by
        have one := List.length_erase_of_mem member
        rw [relink_observers, if_pos points, if_neg (by simp), List.append_nil]
        omega
      rw [ih (matched.relink live slot none) shorter, relink_without live slot points]

theorem firstObserving_without (w : Net α) (s : StreamRef) : (w.without s).firstObserving s = none := by
  have quiet : (w.without s).observers s = [] := Function.update_self ..
  rw [firstObserving, quiet]
  rfl

theorem removeObservers_eq (matched : w.Matched) (s : StreamRef) : w.removeObservers s = w.without s := by
  unfold removeObservers
  rw [removeObserversLoop_eq matched (Nat.le_refl _)]
  dsimp only [without]
  rw [Function.update_idem]

/-- The search for an observer finds none after so many rounds, whatever the bound is. Then the stream is
neither observed nor read, and the other inputs and lists are as they were. -/
theorem removeObservers_disconnects (w : Net α) (matched : w.Matched) (s : StreamRef) :
    (∀ fuel ≥ (w.observers s).length, removeObserversLoop s fuel w = removeObserversLoop s (w.observers s).length w ∧
      (removeObserversLoop s fuel w).firstObserving s = none) ∧
    (w.removeObservers s).observers s = [] ∧ (∀ r, (w.removeObservers s).slotCount r s = 0) ∧
    (∀ r, (w.removeObservers s).modules r = (w.modules r).map (·.without s)) ∧
    ∀ t, t ≠ s → (w.removeObservers s).observers t = w.observers t := by
  rw [removeObservers_eq matched]
  refine ⟨fun fuel enough => ?_, Function.update_self .., fun r => without_slotCount w r s, fun r => rfl, fun t other => ?_⟩
  · rw [removeObserversLoop_eq matched enough, removeObserversLoop_eq matched (Nat.le_refl _)]
    exact ⟨rfl, firstObserving_without w s⟩
  · exact Function.update_of_ne other ..

/-! ### A module that observes a stream twice -/

/-- A module with an output and one with two inputs, without connections. -/
def bare : Net Unit where
  modules r := match r with
    | 0 => some { inputs := [], outputs := ["IplImage".toList], isInternal := false, isError := false, errorMsg := [], state := () }
    | 1 => some { inputs := [⟨"IplImage".toList, none⟩, ⟨"*".toList, none⟩], outputs := [], isInternal := false, isError := false, errorMsg := [], state := () }
    | _ => none
  observers _ := []
  elements := [0, 1]
  next := 2

theorem bare_matched : bare.Matched := by
  intro s r
  match r with
  | 0 => rfl
  | 1 => rfl
  | _ + 2 => rfl

def twofold : Net Unit := (bare.setInput 1 (some ⟨0, 0⟩) 0).setInput 1 (some ⟨0, 0⟩) 1

theorem twofold_disconnects : twofold.Matched ∧ twofold.observers ⟨0, 0⟩ = [1, 1] ∧
    (twofold.removeObservers ⟨0, 0⟩).observers ⟨0, 0⟩ = [] ∧ (twofold.removeObservers ⟨0, 0⟩).slotCount 1 ⟨0, 0⟩ = 0 := by
  have matched : twofold.Matched := (bare_matched.setInput 1 _ 0).setInput 1 _ 1
  have removed := removeObservers_disconnects twofold matched ⟨0, 0⟩
  exact ⟨matched, by decide, removed.2.1, removed.2.2.1 1⟩

end Net

end Movid
