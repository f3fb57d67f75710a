import Movid.Preset.Lines
import Movid.Preset.Pipeline

/-!
# Saved connections

The writer walks the observers of each output and looks up the input of the observer by the
stream. The reader connects one input after the other. An input that is not the first one on
its stream is never written.
-/

namespace Movid.Preset

variable {P : Platform} {w u v : Net (Config P)} {r k : ModuleRef} {s : StreamRef} {n : Nat}

def idOf (w : Net (Config P)) (r : ModuleRef) : Str := ((w.modules r).map (·.state.id)).getD []

/-- The ids are pairwise distinct tokens. -/
structure DistinctIds (w : Net (Config P)) : Prop where
  token : ∀ r ∈ w.elements, Text.Token (idOf w r)
  distinct : (w.elements.map (idOf w)).Nodup

def Accepted (w : Net (Config P)) : Prop :=
  ∀ r ∈ w.elements, ∀ port ∈ ((w.modules r).map (·.inputs)).getD [], ∀ s, port.stream = some s →
    port.isStreamValid (w.getFormat s) = true

/-- What input `n` is connected to. -/
def slot (w : Net (Config P)) (r : ModuleRef) (n : Nat) : Option StreamRef :=
  (w.modules r).bind fun m => m.inputs[n]?.bind (·.stream)

/-- `v` has a fresh module for each of `w`, in the same order; `φ` leads from one to the other. -/
structure Copies (w v : Net (Config P)) (φ : ModuleRef → ModuleRef) : Prop where
  elements : v.elements = w.elements.map φ
  injective : ∀ r ∈ w.elements, ∀ r' ∈ w.elements, φ r = φ r' → r = r'
  fresh : ∀ r ∈ w.elements,
    (v.modules (φ r)).map (fun m => (m.state.id, m.outputs, m.isError, m.inputs)) =
      (w.modules r).map fun m => (m.state.id, m.outputs, false, m.inputs.map fun port => { port with stream := none })

/-- Input `n` of a module is on output `i` of another in the one if and only if it is in the other. -/
def SameWiring (w v : Net (Config P)) (φ : ModuleRef → ModuleRef) : Prop :=
  ∀ r ∈ w.elements, ∀ k ∈ w.elements, ∀ n i, slot w r n = some ⟨k, i⟩ ↔ slot v (φ r) n = some ⟨φ k, i⟩

def SingleUse (w : Net (Config P)) : Prop :=
  ∀ r ∈ w.elements, ∀ n n' s, slot w r n = some s → slot w r n' = some s → n = n'

/-! ### The written links -/

theorem idOf_of_some {m : Module (Config P)} (found : w.modules r = some m) : idOf w r = m.state.id := by
  simp [idOf, found]

/-- Input `n` is the first one of module `r` on the stream. -/
structure Link where
  stream : StreamRef
  target : ModuleRef
  input : Nat

def linkTo (w : Net (Config P)) (s : StreamRef) (r : ModuleRef) : Option Link :=
  (w.modules r).bind fun m =>
    if m.isInternal then none else (m.inputs.findIdx? (·.stream == some s)).map fun n => ⟨s, r, n⟩

def links (w : Net (Config P)) : List Link :=
  w.elements.flatMap fun k =>
    (List.range (((w.modules k).map (·.outputs.length)).getD 0)).flatMap fun i =>
      (w.observers ⟨k, i⟩).filterMap (linkTo w ⟨k, i⟩)

def Link.line (w : Net (Config P)) (link : Link) : Str :=
  connectLine (idOf w link.stream.owner) link.stream.idx (idOf w link.target) link.input

theorem Pipeline.observes (pipeline : Pipeline w) {m : Module (Config P)} (found : w.modules k = some m)
    (inside : n < m.outputs.length) (member : r ∈ w.observers ⟨k, n⟩) :
    ∃ m' i, w.modules r = some m' ∧ m'.inputs.findIdx? (·.stream == some ⟨k, n⟩) = some i := by
  have output : w.IsOutput ⟨k, n⟩ := ⟨m.inputs.length, m.outputs, by simp [Net.shape, found], inside⟩
  have used : 0 < w.slotCount r ⟨k, n⟩ := by
    rw [← pipeline.wired.count _ r output (by simp)]
    exact List.count_pos_iff.mpr member
  cases alive : w.modules r with
  | none => simp [Net.slotCount_of_none alive] at used
  | some m' =>
    rw [Net.slotCount_of_some alive] at used
    obtain ⟨port, inPorts, hit⟩ := List.countP_pos_iff.mp used
    have some : (m'.inputs.findIdx? (·.stream == some ⟨k, n⟩)).isSome = true := by
      rw [List.findIdx?_isSome, List.any_eq_true]
      exact ⟨port, inPorts, hit⟩
    obtain ⟨i, first⟩ := Option.isSome_iff_exists.mp some
    exact ⟨m', i, rfl, first⟩

theorem Pipeline.connectionLines_eq (pipeline : Pipeline w) : connectionLines w = (links w).map (Link.line w) := by
  unfold connectionLines links
  rw [List.map_flatMap]
  apply List.flatMap_congr
  intro k _
  unfold connections
  cases found : w.modules k with
  | none => rfl
  | some m =>
    simp only [Option.map_some, Option.getD_some]
    rw [List.map_flatMap]
    apply List.flatMap_congr
    intro i bound
    rw [List.map_filterMap]
    apply List.filterMap_congr
    intro r member
    obtain ⟨m', n, alive, first⟩ := pipeline.observes found (List.mem_range.mp bound) member
    unfold connection linkTo
    rw [alive]
    simp only [Option.bind_some]
    split
    · rfl
    · simp [first, Link.line, idOf, found, alive, Module.getInputIndex]

theorem mem_links {link : Link} : link ∈ links w ↔ link.stream.owner ∈ w.elements ∧
    (∃ m, w.modules link.stream.owner = some m ∧ link.stream.idx < m.outputs.length) ∧
    link.target ∈ w.observers link.stream ∧ linkTo w link.stream link.target = some link := by
  unfold links
  simp only [List.mem_flatMap, List.mem_range, List.mem_filterMap]
  constructor
  · rintro ⟨k, inside, i, bound, r, member, made⟩
    obtain ⟨m', alive, made'⟩ := Option.bind_eq_some_iff.mp made
    have same : link = ⟨⟨k, i⟩, r, link.input⟩ := by
      split at made'
      · cases made'
      · obtain ⟨n, _, rfl⟩ := Option.map_eq_some_iff.mp made'
        rfl
    cases found : w.modules k with
    | none => simp [found] at bound
    | some m =>
      rw [same] at made ⊢
      exact ⟨inside, ⟨m, found, by simpa [found] using bound⟩, member, made⟩
  · rintro ⟨inside, ⟨m, found, bound⟩, member, made⟩
    exact ⟨_, inside, _, by simpa [found] using bound, _, member, made⟩

theorem slot_of_some {m : Module (Config P)} (found : w.modules r = some m) (n : Nat) :
    slot w r n = m.inputs[n]?.bind (·.stream) := by rw [slot, found, Option.bind_some]

theorem findIdx?_slot {m : Module (Config P)} (found : w.modules r = some m) :
    m.inputs.findIdx? (·.stream == some s) = some n ↔ slot w r n = some s ∧ ∀ n' < n, slot w r n' ≠ some s := by
  have at_slot (i : Nat) : slot w r i = some s ↔ ∃ port, m.inputs[i]? = some port ∧ port.stream = some s := by
    rw [slot_of_some found, Option.bind_eq_some_iff]
  rw [List.findIdx?_eq_some_iff_getElem]
  constructor
  · rintro ⟨bound, hit, before⟩
    refine ⟨(at_slot n).mpr ⟨_, List.getElem?_eq_getElem bound, by simpa using hit⟩, fun i low here => ?_⟩
    obtain ⟨port, at_i, points⟩ := (at_slot i).mp here
    have miss := before i low
    rw [(List.getElem?_eq_some_iff.mp at_i).2, points] at miss
    simp at miss
  · rintro ⟨here, before⟩
    obtain ⟨port, at_n, points⟩ := (at_slot n).mp here
    obtain ⟨bound, same⟩ := List.getElem?_eq_some_iff.mp at_n
    refine ⟨bound, by simp [same, points], fun i low => ?_⟩
    have miss := before i low
    rw [ne_eq, at_slot] at miss
    have inside : i < m.inputs.length := Nat.lt_trans low bound
    simpa using fun points => miss ⟨_, List.getElem?_eq_getElem inside, points⟩

theorem Pipeline.isOutput_of_slot (pipeline : Pipeline w) (inside : r ∈ w.elements) (here : slot w r n = some s) :
    w.IsOutput s ∧ 0 < w.slotCount r s := by
  obtain ⟨m, found, at_n⟩ := Option.bind_eq_some_iff.mp here
  obtain ⟨port, at_n, points⟩ := Option.bind_eq_some_iff.mp at_n
  have used : 0 < w.slotCount r s := Net.slotCount_pos found at_n points
  refine ⟨?_, used⟩
  rcases pipeline.wired.slot r s (by simp) used with output | ⟨_, outside⟩
  · exact output
  · exact absurd inside outside

theorem Pipeline.owner_mem (pipeline : Pipeline w) (output : w.IsOutput s) :
    s.owner ∈ w.elements ∧ ∃ m, w.modules s.owner = some m ∧ s.idx < m.outputs.length := by
  obtain ⟨inputs, outputs, shape, bound⟩ := output
  constructor
  · by_contra outside
    have empty := pipeline.wired.outside _ _ shape outside
    rw [(Prod.mk.inj empty).2] at bound
    cases bound
  · obtain ⟨m, found, same⟩ := Option.map_eq_some_iff.mp shape
    exact ⟨m, found, (Prod.mk.inj same).2 ▸ bound⟩

theorem Pipeline.link_slot (pipeline : Pipeline w) {link : Link} (member : link ∈ links w) :
    link.target ∈ w.elements ∧ slot w link.target link.input = some link.stream := by
  obtain ⟨_, _, _, made⟩ := mem_links.mp member
  obtain ⟨m, found, made⟩ := Option.bind_eq_some_iff.mp made
  split at made
  · cases made
  · rename_i visible
    obtain ⟨n, first, same⟩ := Option.map_eq_some_iff.mp made
    have input : n = link.input := congrArg Link.input same
    refine ⟨?_, input ▸ ((findIdx?_slot found).mp first).1⟩
    by_contra outside
    exact visible ((pipeline.internal _ m found).mpr outside)

theorem Pipeline.mem_links_of_slot (pipeline : Pipeline w) (inside : r ∈ w.elements) (here : slot w r n = some s)
    (first : ∀ n' < n, slot w r n' ≠ some s) : ⟨s, r, n⟩ ∈ links w := by
  obtain ⟨output, used⟩ := pipeline.isOutput_of_slot inside here
  obtain ⟨owner, alive⟩ := pipeline.owner_mem output
  obtain ⟨m, found, _⟩ := Option.bind_eq_some_iff.mp here
  refine mem_links.mpr ⟨owner, alive, ?_, ?_⟩
  · rw [← pipeline.wired.count s r output (by simp)] at used
    exact List.count_pos_iff.mp used
  · have visible : ¬m.isInternal = true := fun hidden => (pipeline.internal r m found).mp hidden inside
    unfold linkTo
    simp only [found, Option.bind_some]
    rw [if_neg visible, (findIdx?_slot found).mpr ⟨here, first⟩]
    rfl

/-! ### Running the links -/

def rename (φ : ModuleRef → ModuleRef) (s : StreamRef) : StreamRef := ⟨φ s.owner, s.idx⟩

/-- The inputs in `done` have been connected again, on a net that started as `v`. -/
structure Partial (w v u : Net (Config P)) (φ : ModuleRef → ModuleRef) (done : Set (ModuleRef × Nat)) : Prop where
  elements : u.elements = w.elements.map φ
  injective : ∀ r ∈ w.elements, ∀ r' ∈ w.elements, φ r = φ r' → r = r'
  states : ∀ r', (u.modules r').map (·.state) = (v.modules r').map (·.state)
  modules : ∀ r ∈ w.elements, ∀ m, w.modules r = some m → ∃ m', u.modules (φ r) = some m' ∧
    m'.state.id = m.state.id ∧ m'.outputs = m.outputs ∧ m'.isError = false ∧
      m'.inputs.map (·.type) = m.inputs.map (·.type)
  connected : ∀ r ∈ w.elements, ∀ n, (r, n) ∈ done → slot u (φ r) n = (slot w r n).map (rename φ)
  free : ∀ r ∈ w.elements, ∀ n, (r, n) ∉ done → slot u (φ r) n = none

variable {φ : ModuleRef → ModuleRef} {done : Set (ModuleRef × Nat)}

theorem Copies.module (copies : Copies w v φ) (inside : r ∈ w.elements) {m : Module (Config P)}
    (found : w.modules r = some m) : ∃ m', v.modules (φ r) = some m' ∧ m'.state.id = m.state.id ∧
      m'.outputs = m.outputs ∧ m'.isError = false ∧ m'.inputs = m.inputs.map fun port => { port with stream := none } := by
  have same := copies.fresh r inside
  rw [found, Option.map_some] at same
  obtain ⟨m', found', facts⟩ := Option.map_eq_some_iff.mp same
  simp only [Prod.mk.injEq] at facts
  exact ⟨m', found', facts⟩

theorem Copies.start (copies : Copies w v φ) (live : ∀ r ∈ w.elements, ∃ m, w.modules r = some m) :
    Partial w v v φ ∅ where
  elements := copies.elements
  injective := copies.injective
  states _ := rfl
  modules r inside m found := by
    obtain ⟨m', found', id, outputs, noError, inputs⟩ := copies.module inside found
    exact ⟨m', found', id, outputs, noError, by rw [inputs, List.map_map]; rfl⟩
  connected _ _ _ impossible := by cases impossible
  free r inside n _ := by
    obtain ⟨m, found⟩ := live r inside
    obtain ⟨m', found', _, _, _, inputs⟩ := copies.module inside found
    rw [slot_of_some found', inputs, List.getElem?_map]
    cases m.inputs[n]? <;> rfl

theorem find?_eq_some_of_unique {α : Type} {p : α → Bool} {l : List α} {a : α} (member : a ∈ l) (hit : p a = true)
    (unique : ∀ b ∈ l, p b = true → b = a) : l.find? p = some a := by
  cases found : l.find? p with
  | none => exact absurd hit (List.find?_eq_none.mp found a member)
  | some b => rw [unique b (List.mem_of_find?_eq_some found) (List.find?_some found)]

theorem Partial.getModuleById (part : Partial w v u φ done) (ids : DistinctIds w)
    (live : ∀ r ∈ w.elements, ∃ m, w.modules r = some m) {m : Module (Config P)} (inside : r ∈ w.elements)
    (found : w.modules r = some m) : getModuleById u m.state.id = some (φ r) := by
  unfold Preset.getModuleById
  rw [part.elements]
  obtain ⟨m', found', id, _⟩ := part.modules r inside m found
  refine find?_eq_some_of_unique (List.mem_map_of_mem inside) (by simp [found', id]) ?_
  rintro _ member hit
  obtain ⟨x, inside', rfl⟩ := List.mem_map.mp member
  obtain ⟨m₂, found₂⟩ := live x inside'
  obtain ⟨m₂', found₂', id₂, _⟩ := part.modules x inside' m₂ found₂
  have same : m₂'.state.id = m.state.id := by simpa [found₂'] using hit
  have ids' : idOf w x = idOf w r := by rw [idOf_of_some found₂, idOf_of_some found, ← id₂, same]
  rw [List.inj_on_of_nodup_map ids.distinct inside' inside ids']

theorem setInput_accepted {m : Module (Config P)} {port : InputPort} (found : w.modules r = some m)
    (at_n : m.inputs[n]? = some port) (valid : port.isStreamValid (w.getFormat s) = true) :
    (w.setInput r (some s) n).modules = Function.update w.modules r (some (m.setSlot n (some s))) := by
  have at_n' : m.inputPort n = some port := by simpa [Module.inputPort] using at_n
  obtain ⟨bad, _⟩ | ⟨port', at', ⟨_, same⟩ | ⟨s', given, invalid, _⟩⟩ := Net.setInput_cases found (some s) n
  · rw [at_n'] at bad
    cases bad
  · rw [same, Net.relink_modules, Net.setSlot, Net.updateModule, found]
    rfl
  · cases given
    rw [Option.some.inj (at'.symm.trans at_n'), valid] at invalid
    cases invalid

theorem slot_update (u u' : Net (Config P)) {m : Module (Config P)} (found : u.modules r = some m)
    (modules : u'.modules = Function.update u.modules r (some (m.setSlot n (some s)))) (inside : n < m.inputs.length)
    (x : ModuleRef) (i : Nat) : slot u' x i = if x = r ∧ i = n then some s else slot u x i := by
  unfold slot
  rw [modules]
  by_cases same : x = r
  · subst same
    rw [Function.update_self, found, Option.bind_some, Option.bind_some, Module.setSlot, List.getElem?_modify]
    by_cases here : i = n
    · subst here
      rw [if_pos ⟨rfl, rfl⟩, List.getElem?_eq_getElem inside]
      simp
    · rw [if_neg (fun both => here both.2)]
      simp [Ne.symm here]
  · rw [Function.update_of_ne same, if_neg (fun both => same both.1)]

theorem Pipeline.live (pipeline : Pipeline w) : ∀ r ∈ w.elements, ∃ m, w.modules r = some m := fun r inside => by
  obtain ⟨shape, alive⟩ := Option.ne_none_iff_exists'.mp (pipeline.wired.element r inside)
  obtain ⟨m, found, _⟩ := Option.map_eq_some_iff.mp alive
  exact ⟨m, found⟩

theorem Pipeline.small (pipeline : Pipeline w) (inside : r ∈ w.elements) {m : Module (Config P)}
    (found : w.modules r = some m) : m.inputs.length ≤ 3 ∧ m.outputs.length ≤ 3 := by
  obtain ⟨inputs, outputs⟩ := pipeline.declared r inside m found
  refine ⟨?_, outputs ▸ m.state.type.outputs_short⟩
  have count := m.state.type.inputs_short
  rw [← inputs, List.length_map] at count
  exact count

theorem atoi_small {n : Nat} (small : n ≤ 3) : (Text.atoi (Text.showInt n)).toInt = n :=
  Text.atoi_showInt_of_bounds (by omega) (by omega)

/-- The input of the copy takes the stream of the copy, as the saved input took the saved stream. -/
theorem Partial.takes (part : Partial w v u φ done) (accepted : Accepted w) {link : Link} (owner : link.stream.owner ∈ w.elements)
    {mk : Module (Config P)} (foundK : w.modules link.stream.owner = some mk) (inside : link.target ∈ w.elements)
    {m m' : Module (Config P)} (found : w.modules link.target = some m) {port : InputPort}
    (at_n : m.inputs[link.input]? = some port) (points : port.stream = some link.stream)
    (types : m'.inputs.map (·.type) = m.inputs.map (·.type)) :
    ∃ port', m'.inputs[link.input]? = some port' ∧ port'.isStreamValid (u.getFormat (rename φ link.stream)) = true := by
  obtain ⟨mk', foundK', _, outputsK, _, _⟩ := part.modules _ owner mk foundK
  have same : (m'.inputs[link.input]?).map (·.type) = some port.type := by
    rw [← List.getElem?_map, types, List.getElem?_map, at_n]
    rfl
  obtain ⟨port', at_n', type⟩ := Option.map_eq_some_iff.mp same
  have format : u.getFormat (rename φ link.stream) = w.getFormat link.stream := by
    simp [Net.getFormat, rename, foundK', foundK, outputsK]
  have before := accepted _ inside port (by rw [found]; exact List.mem_of_getElem? at_n) _ points
  refine ⟨port', at_n', ?_⟩
  unfold InputPort.isStreamValid at before ⊢
  rw [format, type]
  exact before

/-- One more input of the copy is connected. -/
theorem Partial.plug (part : Partial w v u φ done) {link : Link} (inside : link.target ∈ w.elements)
    (here : slot w link.target link.input = some link.stream) {m' : Module (Config P)} (found' : u.modules (φ link.target) = some m')
    (small : link.input < m'.inputs.length) {u' : Net (Config P)} (elements : u'.elements = u.elements)
    (modules : u'.modules = Function.update u.modules (φ link.target) (some (m'.setSlot link.input (some (rename φ link.stream))))) :
    Partial w v u' φ (insert (link.target, link.input) done) where
  elements := elements.trans part.elements
  injective := part.injective
  states x := by
    rw [modules]
    by_cases same : x = φ link.target
    · rw [same, Function.update_self, ← part.states, found']
      rfl
    · rw [Function.update_of_ne same, part.states]
  modules x member mx foundX := by
    obtain ⟨mx', foundX', kept⟩ := part.modules x member mx foundX
    rw [modules]
    by_cases same : x = link.target
    · subst same
      obtain rfl : m' = mx' := Option.some.inj (found'.symm.trans foundX')
      obtain ⟨id, outputs, noError, types⟩ := kept
      exact ⟨_, Function.update_self .., id, outputs, noError, (Net.setSlot_types ..).trans types⟩
    · rw [Function.update_of_ne fun both => same (part.injective x member _ inside both)]
      exact ⟨mx', foundX', kept⟩
  connected x member i now := by
    rw [slot_update u _ found' modules small]
    by_cases same : x = link.target ∧ i = link.input
    · rw [if_pos ⟨congrArg φ same.1, same.2⟩, same.1, same.2, here]
      rfl
    · have old : (x, i) ∈ done := by
        rcases now with new | old
        · exact absurd (Prod.mk.inj new) same
        · exact old
      rw [if_neg fun both => same ⟨part.injective x member _ inside both.1, both.2⟩]
      exact part.connected x member i old
  free x member i never := by
    rw [slot_update u _ found' modules small, if_neg]
    · exact part.free x member i fun old => never (Or.inr old)
    · rintro ⟨same, rfl⟩
      refine never (Or.inl ?_)
      rw [part.injective x member _ inside same]

theorem Partial.noError (part : Partial w v u φ done) (inside : r ∈ w.elements) {m : Module (Config P)}
    (found : w.modules r = some m) : haveError u (φ r) = false := by
  obtain ⟨_, found', _, _, clear, _⟩ := part.modules r inside m found
  simp [haveError, found', clear]

theorem Partial.connect (part : Partial w v u φ done) (pipeline : Pipeline w) (accepted : Accepted w) {link : Link}
    (member : link ∈ links w) :
    ∃ u', u.setInput (φ link.target) (u.getOutput (φ link.stream.owner) link.stream.idx) link.input = u' ∧
      haveError u' (φ link.stream.owner) = false ∧ haveError u' (φ link.target) = false ∧
        Partial w v u' φ (insert (link.target, link.input) done) := by
  obtain ⟨owner, ⟨mk, foundK, bound⟩, _, _⟩ := mem_links.mp member
  obtain ⟨inside, here⟩ := pipeline.link_slot member
  obtain ⟨m, found, at_n⟩ := Option.bind_eq_some_iff.mp here
  obtain ⟨port, at_n, points⟩ := Option.bind_eq_some_iff.mp at_n
  obtain ⟨mk', foundK', _, outputsK, _, _⟩ := part.modules _ owner mk foundK
  obtain ⟨m', found', _, _, _, types⟩ := part.modules _ inside m found
  have given : u.getOutput (φ link.stream.owner) link.stream.idx = some (rename φ link.stream) := by
    rw [Net.getOutput, foundK']
    simp [outputsK, bound, rename]
  obtain ⟨port', at_n', valid⟩ := part.takes accepted owner foundK inside found at_n points types
  have small : link.input < m'.inputs.length := (List.getElem?_eq_some_iff.mp at_n').1
  refine ⟨_, rfl, ?_⟩
  rw [given]
  have next := part.plug inside here found' small (Net.setInput_elements ..) (setInput_accepted found' at_n' valid)
  exact ⟨next.noError owner foundK, next.noError inside found, next⟩

theorem Partial.parseLine {s : Reader P} (part : Partial w v s.net φ done) (pipeline : Pipeline w)
    (ids : DistinctIds w) (accepted : Accepted w) (outside : s.data = none) {link : Link} (member : link ∈ links w) :
    ∃ u', s.parseLine (link.line w) = .ok { s with net := u' } ∧
      Partial w v u' φ (insert (link.target, link.input) done) := by
  obtain ⟨owner, ⟨mk, foundK, bound⟩, _, _⟩ := mem_links.mp member
  obtain ⟨inside, here⟩ := pipeline.link_slot member
  obtain ⟨m, found, at_n⟩ := Option.bind_eq_some_iff.mp here
  obtain ⟨port, at_n, _⟩ := Option.bind_eq_some_iff.mp at_n
  have smallOut : link.stream.idx ≤ 3 :=
    Nat.le_of_lt (Nat.lt_of_lt_of_le bound (pipeline.small owner foundK).2)
  have smallIn : link.input ≤ 3 :=
    Nat.le_of_lt (Nat.lt_of_lt_of_le (List.getElem?_eq_some_iff.mp at_n).1 (pipeline.small inside found).1)
  obtain ⟨u', step, clearK, clear, next⟩ := part.connect pipeline accepted member
  refine ⟨u', ?_, next⟩
  unfold Link.line
  rw [idOf_of_some foundK, idOf_of_some found,
    Reader.parseLine_connect (idOf_of_some foundK ▸ ids.token _ owner) (idOf_of_some found ▸ ids.token _ inside) _ _ outside]
  unfold Reader.connect
  simp only [part.getModuleById ids pipeline.live owner foundK, part.getModuleById ids pipeline.live inside found,
    atoi_small smallOut, atoi_small smallIn, step, clearK, clear]
  rfl

theorem Partial.parseLines (pipeline : Pipeline w) (ids : DistinctIds w) (accepted : Accepted w) {ls : List Link}
    (members : ∀ link ∈ ls, link ∈ links w) {s : Reader P} (part : Partial w v s.net φ done)
    (outside : s.data = none) :
    ∃ u', s.parseLines (ls.map (Link.line w)) = .ok { s with net := u' } ∧
      Partial w v u' φ (done ∪ { target | ∃ link ∈ ls, target = (link.target, link.input) }) := by
  induction ls generalizing s done with
  | nil => exact ⟨s.net, rfl, by simpa using part⟩
  | cons link ls ih =>
    obtain ⟨u₁, first, part₁⟩ := part.parseLine pipeline ids accepted outside (members link List.mem_cons_self)
    obtain ⟨u', rest, part'⟩ := ih (fun l inside => members l (List.mem_cons_of_mem _ inside))
      (s := { s with net := u₁ }) part₁ outside
    refine ⟨u', ?_, ?_⟩
    · rw [List.map_cons, Reader.parseLines_cons, first]
      exact rest
    · have same : insert (link.target, link.input) done ∪ { target | ∃ l ∈ ls, target = (l.target, l.input) } =
          done ∪ { target | ∃ l ∈ link :: ls, target = (l.target, l.input) } := by
        ext target
        simp only [Set.mem_union, Set.mem_insert_iff, Set.mem_ofPred_eq, List.mem_cons, exists_eq_or_imp]
        tauto
      rw [← same]
      exact part'

/-- All connection lines at once: the first input on each stream is connected again. -/
theorem Copies.parse_connections (copies : Copies w v φ) (pipeline : Pipeline w) (ids : DistinctIds w)
    (accepted : Accepted w) {s : Reader P} (net : s.net = v) (outside : s.data = none) :
    ∃ u, s.parseLines (connectionLines w) = .ok { s with net := u } ∧
      Partial w v u φ { target | ∃ link ∈ links w, target = (link.target, link.input) } := by
  rw [pipeline.connectionLines_eq]
  have start : Partial w v s.net φ ∅ := net ▸ copies.start pipeline.live
  obtain ⟨u, run, part⟩ := Partial.parseLines pipeline ids accepted
    (fun link (member : link ∈ links w) => member) start outside
  rw [Set.empty_union] at part
  exact ⟨u, run, part⟩

theorem Pipeline.connectionLines_newline (pipeline : Pipeline w)
    (tokens : ∀ r ∈ w.elements, Text.Token (idOf w r)) : ∀ line ∈ connectionLines w, '\n' ∉ line := by
  rw [pipeline.connectionLines_eq]
  intro line member
  obtain ⟨link, inside, rfl⟩ := List.mem_map.mp member
  obtain ⟨owner, _⟩ := mem_links.mp inside
  obtain ⟨target, _⟩ := pipeline.link_slot inside
  exact connectLine_newline (tokens _ owner) (tokens _ target) _ _

/-- A slot is written unless an earlier input of the module is on the same stream. -/
theorem Pipeline.mem_links_iff_first (pipeline : Pipeline w) {r : ModuleRef} (inside : r ∈ w.elements) {n : Nat} {s : StreamRef}
    (here : slot w r n = some s) :
    (∃ link ∈ links w, (r, n) = (link.target, link.input)) ↔ ∀ n' < n, slot w r n' ≠ some s := by
  constructor
  · rintro ⟨link, member, same⟩
    obtain ⟨rfl, rfl⟩ := Prod.mk.inj same
    have stream := (pipeline.link_slot member).2
    rw [here] at stream
    cases stream
    obtain ⟨_, _, _, made⟩ := mem_links.mp member
    obtain ⟨m, found, made⟩ := Option.bind_eq_some_iff.mp made
    split at made
    · cases made
    · obtain ⟨n, first, same⟩ := Option.map_eq_some_iff.mp made
      rw [← congrArg Link.input same]
      exact ((findIdx?_slot found).mp first).2
  · exact fun first => ⟨⟨s, r, n⟩, pipeline.mem_links_of_slot inside here first, rfl⟩

theorem Partial.sameWiring_iff (pipeline : Pipeline w)
    (part : Partial w v u φ { target | ∃ link ∈ links w, target = (link.target, link.input) }) :
    SameWiring w u φ ↔ SingleUse w := by
  constructor
  · intro same r inside
    -- The earlier one of two inputs on a stream is written for both.
    have earlier (n n' : Nat) (s : StreamRef) (first : slot w r n = some s) (second : slot w r n' = some s)
        (before : n < n') : False := by
      have lost : slot u (φ r) n' = none := by
        apply part.free r inside n'
        intro found
        exact (pipeline.mem_links_iff_first inside second).mp found n before first
      have owner := (pipeline.owner_mem (pipeline.isOutput_of_slot inside second).1).1
      rw [(same r inside s.owner owner n' s.idx).mp second] at lost
      cases lost
    intro n n' s first second
    rcases Nat.lt_trichotomy n n' with before | here | after
    · exact (earlier n n' s first second before).elim
    · exact here
    · exact (earlier n' n s second first after).elim
  · intro single r inside k member n i
    constructor
    · intro here
      have done := (pipeline.mem_links_iff_first inside here).mpr fun n' before again =>
        absurd (single r inside n' n _ again here) (Nat.ne_of_lt before)
      rw [part.connected r inside n done, here]
      rfl
    · intro here
      by_cases done : ∃ link ∈ links w, (r, n) = (link.target, link.input)
      · rw [part.connected r inside n done] at here
        obtain ⟨s, old, same⟩ := Option.map_eq_some_iff.mp here
        have owner := (pipeline.owner_mem (pipeline.isOutput_of_slot inside old).1).1
        have back : s.owner = k := part.injective _ owner k member (congrArg StreamRef.owner same)
        have idx : s.idx = i := congrArg StreamRef.idx same
        rw [old, ← back, ← idx]
      · rw [part.free r inside n done] at here
        cases here

/-- The connections of a pipeline are rebuilt if and only if no module takes one stream on two
inputs. -/
theorem connections_rebuilt_iff (pipeline : Pipeline w) (ids : DistinctIds w) (accepted : Accepted w)
    (copies : Copies w v φ) (counters : Counters) (delay : Int32) :
    (∃ s, (Reader.start v counters delay).parse (Text.unlines (connectionLines w)) = .ok s ∧
      SameWiring w s.net φ) ↔ SingleUse w := by
  obtain ⟨u, run, part⟩ := copies.parse_connections pipeline ids accepted (s := Reader.start v counters delay) rfl rfl
  have read : (Reader.start v counters delay).parse (Text.unlines (connectionLines w)) =
      .ok { Reader.start v counters delay with net := u } := by
    rw [Reader.parse, Text.lines_unlines, Text.flatMap_lines (pipeline.connectionLines_newline ids.token),
      Reader.parseLines_append, run]
    rfl
  rw [← part.sameWiring_iff pipeline, read]
  constructor
  · rintro ⟨s, same, wiring⟩
    cases same
    exact wiring
  · exact fun wiring => ⟨_, rfl, wiring⟩

/-! ### One image on both inputs -/

open Platform

/-- An image and a module that combines two images, with the image on its first `n` inputs. -/
def combined (n : Nat) : Net (Config whole) :=
  Machine.run Net.step Net.empty
    ([.create (ModuleType.image.spec whole (ModuleType.image.construct whole ⟨1, 0⟩).1),
      .create (ModuleType.combine.spec whole (ModuleType.combine.construct whole ⟨2, 0⟩).1)] ++
        (List.range n).map fun i => .setInput 1 (some (0, 0)) i)

theorem combined_pipeline (n : Nat) : Pipeline (combined n) := by
  apply run_pipeline
  intro event member
  rcases List.mem_append.mp member with made | connected
  · rcases List.mem_cons.mp made with rfl | made
    · rfl
    · rw [List.mem_singleton.mp made]
      rfl
  · obtain ⟨i, _, rfl⟩ := List.mem_map.mp connected
    trivial

/-- A stream on one input is connected again. -/
theorem connections_rebuilt_combined : ∃ s,
    (Reader.start (combined 0) ⟨3, 0⟩ 10).parse (Text.unlines (connectionLines (combined 1))) = .ok s ∧
      SameWiring (combined 1) s.net id := by
  have elements : (combined 1).elements = [0, 1] := by decide
  have single : SingleUse (combined 1) := by
    have none (r n : Nat) (inside : r ∈ [0, 1]) (other : ¬(r = 1 ∧ n = 0)) : slot (combined 1) r n = Option.none := by
      rcases List.mem_pair.mp inside with rfl | rfl <;> rcases n with _ | _ | n <;>
        first | rfl | exact absurd ⟨rfl, rfl⟩ other
    intro r inside n n' s first second
    rw [elements] at inside
    have here (n : Nat) (found : slot (combined 1) r n = some s) : r = 1 ∧ n = 0 := by
      by_contra other
      rw [none r n inside other] at found
      cases found
    rw [(here n first).2, (here n' second).2]
  exact (connections_rebuilt_iff (combined_pipeline 1) ⟨by decide, by decide⟩ (by unfold Accepted; decide)
    (v := combined 0) (φ := id) ⟨by decide, fun _ _ _ _ same => same, by decide⟩ ⟨3, 0⟩ 10).mpr single

/-- Both inputs are written as the first one, and the second is lost. -/
theorem connections_lost : Pipeline (combined 2) ∧ DistinctIds (combined 2) ∧ Accepted (combined 2) ∧
    Copies (combined 2) (combined 0) id ∧
    ¬∃ s, (Reader.start (combined 0) ⟨3, 0⟩ 10).parse (Text.unlines (connectionLines (combined 2))) = .ok s ∧
      SameWiring (combined 2) s.net id := by
  refine ⟨combined_pipeline 2, ⟨by decide, by decide⟩, by unfold Accepted; decide,
    ⟨by decide, fun _ _ _ _ same => same, by decide⟩, ?_⟩
  rintro ⟨s, read, same⟩
  have second : ((Reader.start (combined 0) ⟨3, 0⟩ 10).parse (Text.unlines (connectionLines (combined 2)))).toOption.map
      (fun s => slot s.net 1 1) = some none := by decide
  rw [read] at second
  have lost : slot s.net 1 1 = none := Option.some.inj second
  have kept := (same 1 (by decide) 0 (by decide) 1 0).mp (by decide)
  rw [id, id, lost] at kept
  cases kept

end Movid.Preset
