import Mathlib.Data.List.Count
import Movid.Graph.Observers

/-!
# The order of connections

Two calls of `setInput` on different inputs may share a module and their streams. The slots and the error flag of a
module are its own, and where the two records of the connections agree, the slots decide what the lists of observers hold.
-/

namespace Movid

variable {α : Type}

/-- What a port holds after it is given the stream. -/
def InputPort.settle (stream : Option StreamRef) (format : StreamRef → Str) (port : InputPort) : InputPort :=
  { port with stream := stream.filter fun s => port.isStreamValid (format s) }

/-- The inputs and the error flag of a module. -/
abbrev Face := List InputPort × Bool

namespace Face

variable (stream other : Option StreamRef) (format : StreamRef → Str) (n k : Int)

def portAt (face : Face) : Option InputPort := if 0 ≤ n then face.1[n.toNat]? else none

/-- The call is refused: the index is not declared or the format does not fit. -/
def refuses (face : Face) : Bool :=
  match face.portAt n with
  | none => true
  | some port => stream.any fun s => !port.isStreamValid (format s)

def assign (face : Face) : Face :=
  (if 0 ≤ n then face.1.modify n.toNat (.settle stream format) else face.1, face.2 || face.refuses stream format n)

/-- A port refuses by its type. -/
theorem refuses_assign (face : Face) : (face.assign other format k).refuses stream format n = face.refuses stream format n := by
  have type : ((face.assign other format k).portAt n).map (·.type) = (face.portAt n).map (·.type) := by
    unfold portAt assign
    split
    · split
      · rw [List.getElem?_modify]
        cases face.1[n.toNat]? with
        | none => rfl
        | some port => by_cases here : k.toNat = n.toNat <;> simp [here, InputPort.settle]
      · rfl
    · rfl
  unfold refuses
  cases before : face.portAt n with
  | none =>
    rw [before, Option.map_none, Option.map_eq_none_iff] at type
    rw [type]
  | some port =>
    rw [before, Option.map_some] at type
    obtain ⟨port', after, same⟩ := Option.map_eq_some_iff.mp type
    rw [after]
    simp only [InputPort.isStreamValid, same]

theorem assign_comm (face : Face) (apart : n ≠ k) :
    (face.assign stream format n).assign other format k = (face.assign other format k).assign stream format n := by
  refine Prod.ext ?_ ?_
  · unfold assign
    dsimp only
    by_cases first : 0 ≤ n
    · by_cases second : 0 ≤ k
      · simp only [if_pos first, if_pos second]
        exact List.modify_modify_ne _ _ _ (by omega)
      · simp only [if_neg second]
    · simp only [if_neg first]
  · change (_ || _) = (_ || _)
    rw [refuses_assign, refuses_assign]
    exact Bool.or_right_comm ..

theorem assign_idem (face : Face) : (face.assign stream format n).assign stream format n = face.assign stream format n := by
  refine Prod.ext ?_ ?_
  · unfold assign
    dsimp only
    split
    · rw [List.modify_modify_eq]
      rfl
    · rfl
  · change (_ || _) = (_ || _)
    rw [refuses_assign]
    change ((_ || _) || _) = _
    rw [Bool.or_assoc, Bool.or_self]

end Face

namespace Net

variable {w v : Net α} {r x : ModuleRef} {s : StreamRef}

def face (w : Net α) (r : ModuleRef) : Option Face := (w.modules r).map fun m => (m.inputs, m.isError)

/-- The same slots and error flags, and the same observers in any order. -/
structure SameWiring (v w : Net α) : Prop where
  slots : ∀ r, (v.modules r).map (·.inputs) = (w.modules r).map (·.inputs)
  errors : ∀ r, (v.modules r).map (·.isError) = (w.modules r).map (·.isError)
  observers : ∀ s, (v.observers s).Perm (w.observers s)

theorem getFormat_setInput (w : Net α) (r : ModuleRef) (stream : Option StreamRef) (n : Int) :
    (w.setInput r stream n).getFormat = w.getFormat := by
  have outputs (v : Net α) (s : StreamRef) : v.getFormat s = ((v.shape s.owner).bind (·.2[s.idx]?)).getD [] := by
    unfold getFormat shape
    cases v.modules s.owner <;> rfl
  funext s
  rw [outputs, outputs, setInput_shape]

theorem face_of_some {m : Module α} (found : w.modules r = some m) : w.face r = some (m.inputs, m.isError) := by
  unfold face
  rw [found]
  rfl

theorem face_setError {face : Face} (before : w.face r = some face) (msg : Str) : (w.setError r msg).face r = some (face.1, true) := by
  obtain ⟨m, found, rfl⟩ := Option.map_eq_some_iff.mp before
  refine face_of_some (m := m.setError msg) ?_
  rw [Net.setError, updateModule_modules, if_pos rfl, found]
  rfl

theorem face_relink {m : Module α} {port : InputPort} (found : w.modules r = some m) {n : Nat} (slot : m.inputs[n]? = some port)
    (old : Option StreamRef) {stream new : Option StreamRef} {format : StreamRef → Str} (settles : (port.settle stream format).stream = new) :
    (w.relink r n old new).face r = some (m.inputs.modify n (.settle stream format), m.isError) := by
  have inputs : (m.setSlot n new).inputs = m.inputs.modify n (.settle stream format) := by
    refine List.ext_getElem? fun i => ?_
    rw [Module.setSlot, List.getElem?_modify, List.getElem?_modify]
    by_cases here : n = i
    · subst here
      rw [slot, ← settles]
      rfl
    · simp [here]
  rw [← inputs]
  refine face_of_some (m := m.setSlot n new) ?_
  rw [relink_modules, setSlot, updateModule_modules, if_pos rfl, found]
  rfl

/-- What a call does to its own module. -/
theorem face_setInput_self (w : Net α) (r : ModuleRef) (stream : Option StreamRef) (n : Int) :
    (w.setInput r stream n).face r = (w.face r).map (·.assign stream w.getFormat n) := by
  cases found : w.modules r with
  | none =>
    rw [setInput_of_none found, face, found]
    rfl
  | some m =>
    rw [face_of_some found, Option.map_some]
    unfold Face.assign Face.refuses Face.portAt
    obtain ⟨bad, same⟩ | ⟨port, at_n, accepted⟩ := setInput_cases found stream n
    · have nowhere : (if 0 ≤ n then m.inputs[n.toNat]? else none) = none := bad
      have kept : (if 0 ≤ n then m.inputs.modify n.toNat (.settle stream w.getFormat) else m.inputs) = m.inputs := by
        split
        · rename_i inside
          rw [if_pos inside] at nowhere
          exact List.modify_eq_self (List.getElem?_eq_none_iff.mp nowhere)
        · rfl
      rw [same, face_setError (face_of_some found)]
      dsimp only
      rw [nowhere, kept, Bool.or_true]
    · have inside : 0 ≤ n := by
        by_contra outside
        rw [Module.inputPort, if_neg outside] at at_n
        cases at_n
      have slot := inputPort_eq_some at_n
      dsimp only
      rw [if_pos inside, if_pos inside, slot]
      rcases accepted with ⟨valid, same⟩ | ⟨s, rfl, invalid, same⟩
      · have kept : (port.settle stream w.getFormat).stream = stream := by
          cases stream with
          | none => rfl
          | some s => exact Option.filter_some_pos (p := fun s => port.isStreamValid (w.getFormat s)) (valid s rfl)
        have fits : (stream.any fun s => !port.isStreamValid (w.getFormat s)) = false := by
          cases stream with
          | none => rfl
          | some s => rw [Option.any_some, valid s rfl, Bool.not_true]
        rw [same, face_relink found slot port.stream kept]
        dsimp only
        rw [fits, Bool.or_false]
      · have dropped : (port.settle (some s) w.getFormat).stream = none := 
          Option.filter_some_neg (p := fun s => port.isStreamValid (w.getFormat s)) invalid
        rw [same, face_setError (face_relink found slot port.stream dropped)]
        dsimp only
        rw [Option.any_some, invalid, Bool.not_false, Bool.or_true]

theorem face_setInput_of_ne (w : Net α) (other : x ≠ r) (stream : Option StreamRef) (n : Int) :
    (w.setInput r stream n).face x = w.face x := by
  unfold face
  rw [setInput_modules_of_ne w other]

/-! ### The wiring as a whole -/

/-- The slots count the observers. -/
theorem Matched.sameWiring (first : v.Matched) (second : w.Matched) (faces : v.face = w.face) : SameWiring v w where
  slots r := by
    have inputs := congrArg (Option.map Prod.fst) (congrFun faces r)
    unfold face at inputs
    rwa [Option.map_map, Option.map_map] at inputs
  errors r := by
    have flags := congrArg (Option.map Prod.snd) (congrFun faces r)
    unfold face at flags
    rwa [Option.map_map, Option.map_map] at flags
  observers s := by
    refine List.perm_iff_count.mpr fun r => ?_
    have counts (u : Net α) : u.slotCount r s = ((u.face r).map fun f => f.1.countP (·.stream == some s)).getD 0 := by
      unfold slotCount face
      rw [Option.map_map]
      rfl
    rw [first s r, second s r, counts, counts, faces]

theorem face_setInput (w : Net α) (r : ModuleRef) (stream : Option StreamRef) (n : Int) :
    (w.setInput r stream n).face = Function.update w.face r ((w.face r).map (·.assign stream w.getFormat n)) := by
  funext x
  by_cases same : x = r
  · rw [same, face_setInput_self, Function.update_self]
  · rw [face_setInput_of_ne w same, Function.update_of_ne same]

theorem face_comm (w : Net α) {n k : Int} (apart : (r, n) ≠ (x, k)) (stream other : Option StreamRef) :
    ((w.setInput r stream n).setInput x other k).face = ((w.setInput x other k).setInput r stream n).face := by
  rw [face_setInput, face_setInput, face_setInput, face_setInput, getFormat_setInput, getFormat_setInput]
  by_cases same : r = x
  · subst same
    have differ : n ≠ k := fun h => apart (by rw [h])
    simp only [Function.update_self, Function.update_idem, Option.map_map]
    refine congrArg (Function.update w.face r ·) (congrArg (Option.map · _) (funext fun face => ?_))
    exact Face.assign_comm stream other w.getFormat n k face differ
  · rw [Function.update_of_ne same, Function.update_of_ne (Ne.symm same), Function.update_comm same]

theorem face_idem (w : Net α) (r : ModuleRef) (stream : Option StreamRef) (n : Int) :
    ((w.setInput r stream n).setInput r stream n).face = (w.setInput r stream n).face := by
  rw [face_setInput, face_setInput, getFormat_setInput, Function.update_self, Function.update_idem, Option.map_map]
  refine congrArg (Function.update w.face r ·) (congrArg (Option.map · _) (funext fun face => ?_))
  exact Face.assign_idem stream w.getFormat n face

/-- Calls on different inputs may change places, and a call may be repeated. -/
theorem setInput_commutes (w : Net α) (matched : w.Matched) :
    (∀ r x n k, (r, n) ≠ (x, k) → ∀ stream other,
      SameWiring ((w.setInput r stream n).setInput x other k) ((w.setInput x other k).setInput r stream n)) ∧
    ∀ r n stream, SameWiring ((w.setInput r stream n).setInput r stream n) (w.setInput r stream n) := by
  refine ⟨fun r x n k apart stream other => ?_, fun r n stream => ?_⟩
  · exact ((matched.setInput r stream n).setInput x other k).sameWiring ((matched.setInput x other k).setInput r stream n)
      (face_comm w apart stream other)
  · exact ((matched.setInput r stream n).setInput r stream n).sameWiring (matched.setInput r stream n) (face_idem w r stream n)

/-- One input of `twofold` is cleared and the other one is set again. -/
theorem twofold_commutes : twofold.Matched ∧
    SameWiring ((twofold.setInput 1 none 0).setInput 1 (some ⟨0, 0⟩) 1) ((twofold.setInput 1 (some ⟨0, 0⟩) 1).setInput 1 none 0) ∧
    SameWiring ((twofold.setInput 1 none 1).setInput 1 none 1) (twofold.setInput 1 none 1) := by
  have matched : twofold.Matched := (bare_matched.setInput 1 _ 0).setInput 1 _ 1
  obtain ⟨order, again⟩ := setInput_commutes twofold matched
  exact ⟨matched, order 1 1 0 1 (by decide) none (some ⟨0, 0⟩), again 1 1 none⟩

end Net

end Movid
