import Movid.Schedule.Poll

/-!
# Updates and the input they read

The trackers, `Calibration` and `ImageDisplay` read their input in `update` without a check.
The flag that makes the update run was set by a push, but `setInput` can take the stream away
before the module is polled.
-/

namespace Movid.Schedule.World

variable {V L : Type} {b : Behaviour V L} {w v : World V L} {r x : ModuleRef} {s : StreamRef} {fuel : Nat}

def input (w : World V L) (r : ModuleRef) : Option StreamRef := (w.net.modules r).bind (·.getInput 0)

def HasData (w : World V L) (r : ModuleRef) : Prop := ∃ s, w.input r = some s ∧ w.pushed s = true

def Pending (w : World V L) : Prop :=
  ∀ r kind, w.kindOf r = some kind → kind.needsInput = true → w.needUpdate r = true → w.HasData r

theorem needsInput_plain {kind : Kind} (h : kind.needsInput = true) :
    kind.polling = false ∧ kind.inputCount = 1 ∧ kind ≠ .image ∧ kind ≠ .mask := by
  cases kind <;> first | exact ⟨rfl, rfl, by decide, by decide⟩ | cases h

theorem input_eq_frame (w : World V L) (r : ModuleRef) :
    w.input r = (w.frame r).bind fun ports => ports.1[0]?.bind (·.stream) := by
  unfold input frame
  cases w.net.modules r <;> rfl

theorem Effect.input {E : Set ModuleRef} {S : Set StreamRef} (effect : Effect E S w v) (r : ModuleRef) :
    v.input r = w.input r := by rw [input_eq_frame, input_eq_frame, effect.frame]

theorem Effect.hasData {E : Set ModuleRef} {S : Set StreamRef} (effect : Effect E S w v) (h : w.HasData r) :
    v.HasData r := by
  obtain ⟨s, slot, now⟩ := h
  exact ⟨s, (effect.input r).trans slot, effect.pushed s now⟩

theorem Ok.slotCount_pos (ok : w.Ok) (member : r ∈ w.net.observers s) (live : w.net.shape s.owner ≠ none) :
    0 < w.net.slotCount r s := by
  have output : w.net.IsOutput s := by
    by_contra notOutput
    rw [ok.wired.unobserved s notOutput (Or.inr live)] at member
    cases member
  rw [← ok.wired.count s r output (by simp)]
  exact List.count_pos_iff.mpr member

theorem Ok.input_of_observer (ok : w.Ok) {kind : Kind} (known : w.kindOf r = some kind)
    (single : kind.inputCount = 1) (member : r ∈ w.net.observers s) (live : w.net.shape s.owner ≠ none) :
    w.input r = some s := by
  have used := ok.slotCount_pos member live
  cases found : w.net.modules r with
  | none => simp [Net.slotCount_of_none found] at used
  | some m =>
    have arity := ok.arity_of_some found
    have kind' : m.state.kind = kind := by simpa [kindOf, frame, found] using known
    rw [kind', single] at arity
    obtain ⟨port, only⟩ := List.length_eq_one_iff.mp arity
    rw [Net.slotCount_of_some found, only] at used
    have points : port.stream = some s := by
      by_contra other
      simp [other] at used
    simp [input, found, Module.getInput, Module.inputPort, only, points]

theorem shape_ne_none_of_relay (relay : s ∈ w.relays) : w.net.shape s.owner ≠ none := by
  obtain ⟨ports, found, _⟩ := relay
  rw [shape_eq_frame, found]
  simp

theorem pollActions_of_dead (dead : w.net.modules r = none) : pollActions b w r = [] := by
  have job : w.job r = none := by simp [job, dead]
  simp [pollActions, updates, prepare, needUpdate, job]

theorem poll_pending (ok : w.Ok) (pending : w.Pending) (h : w.poll b fuel r = some v) : v.Pending := by
  intro x kind known needs flag
  have effect := poll_effect h
  rw [effect.kindOf] at known
  obtain ⟨plain, single, _⟩ := needsInput_plain needs
  rcases poll_told h known plain flag with before | ⟨s, inside, member, now⟩
  · exact effect.hasData (pending x kind known needs before)
  · have live : w.net.shape s.owner ≠ none := by
      rcases inside with ⟨owner, value, done⟩ | relay
      · rw [owner]
        intro dead
        rw [pollActions_of_dead (Net.shape_eq_none.mp dead)] at done
        cases done
      · exact shape_ne_none_of_relay relay
    exact ⟨s, (effect.input x).trans (ok.input_of_observer known single member live), now⟩

theorem polls_pending {rs : List ModuleRef} (ok : w.Ok) (pending : w.Pending)
    (h : rs.foldlM (poll b fuel) w = some v) : v.Pending := by
  induction rs generalizing w with
  | nil =>
    cases h
    exact pending
  | cons r rs ih =>
    rw [List.foldlM_cons] at h
    obtain ⟨u, first, rest⟩ := Option.bind_eq_some_iff.mp h
    exact ih ((poll_effect first).ok ok) (poll_pending ok pending first) rest

/-! ### Requests -/

def Accepts (w : World V L) (r : ModuleRef) (s : StreamRef) : Prop :=
  ∃ m port, w.net.modules r = some m ∧ m.inputPort 0 = some port ∧ port.isStreamValid (w.net.getFormat s) = true

/-- A connect request leaves the input of a module with a pending update alone, or gives it an
accepted stream that already has data. -/
def ConnectOk (w : World V L) : Event L → Prop
  | .connect r source n =>
    (∃ kind, w.kindOf r = some kind ∧ kind.needsInput = true) → w.needUpdate r = true → n = 0 →
      ∃ s, (source.bind fun (k, i) => w.net.getOutput k i) = some s ∧ w.Accepts r s ∧ w.pushed s = true
  | _ => True

theorem connect_pending (ok : w.Ok) (pending : w.Pending) {source : Option (ModuleRef × Int)} {n : Int}
    (allowed : ConnectOk w (.connect r source n)) :
    ({ w with net := w.net.step (.setInput r source n) } : World V L).Pending := by
  intro x kind known needs flag
  by_cases same : x = r
  · subst same
    cases found : w.net.modules x with
    | none =>
      have still : w.net.step (.setInput x source n) = w.net := Net.setInput_of_none found _ n
      rw [still] at known flag ⊢
      exact pending x kind known needs flag
    | some m =>
      obtain ⟨m', after, state, _, slots⟩ := Net.setInput_modules_self found
        (source.bind fun (k, i) => w.net.getOutput k i) n
      have after' : (w.net.step (.setInput x source n)).modules x = some m' := after
      have known' : w.kindOf x = some kind := by
        simpa [kindOf, frame, found, after', state] using known
      have flag' : w.needUpdate x = true := by
        simpa [needUpdate, job, found, after', state] using flag
      have arity := ok.arity_of_some found
      have kind' : m.state.kind = kind := by simpa [kindOf, frame, found] using known'
      rw [kind', (needsInput_plain needs).2.1] at arity
      obtain ⟨port, only⟩ := List.length_eq_one_iff.mp arity
      rcases slots with ⟨_, inputs⟩ | ⟨port', new, at_n, inputs, accepted⟩
      · obtain ⟨s, slot, now⟩ := pending x kind known' needs flag'
        exact ⟨s, by simpa [input, found, after', Module.getInput, Module.inputPort, inputs] using slot, now⟩
      · have zero : n = 0 := by
          unfold Module.inputPort at at_n
          split at at_n
          · have := (List.getElem?_eq_some_iff.mp at_n).1
            omega
          · cases at_n
        subst zero
        obtain ⟨s, given, ⟨m₀, port₀, found₀, at₀, valid⟩, now⟩ := allowed ⟨kind, known', needs⟩ flag' rfl
        obtain rfl : m₀ = m := Option.some.inj (found₀.symm.trans found)
        obtain rfl : port₀ = port' := Option.some.inj (at₀.symm.trans at_n)
        have taken : new = some s := by
          refine (accepted.1 fun t here => ?_).trans given
          rw [given] at here
          cases here
          exact valid
        refine ⟨s, ?_, now⟩
        simp [input, after', Module.getInput, Module.inputPort, inputs, Module.setSlot, only, taken]
  · have unchanged : (w.net.step (.setInput r source n)).modules x = w.net.modules x :=
      Net.setInput_modules_of_ne w.net same _ n
    obtain ⟨s, slot, now⟩ := pending x kind (by simpa [kindOf, frame, unchanged] using known) needs
      (by simpa [needUpdate, job, unchanged] using flag)
    exact ⟨s, by simpa [input, unchanged] using slot, now⟩

theorem reload_pending (pending : w.Pending) (r : ModuleRef) : (w.reload r).Pending := by
  intro x kind known needs flag
  have effect := reload_effect w r
  rw [effect.kindOf] at known
  by_cases same : x = r
  · subst same
    have still : w.reload x = w := by
      rw [kindOf_eq] at known
      obtain ⟨job, found, rfl⟩ := Option.map_eq_some_iff.mp known
      obtain ⟨_, _, image, mask⟩ := needsInput_plain needs
      simp [reload, found, image, mask]
    rw [still] at flag ⊢
    exact pending x kind known needs flag
  · rcases effect.told x (by simpa using same) flag with before | ⟨_, inside, _⟩
    · exact effect.hasData (pending x kind known needs before)
    · cases inside

theorem create_pending (pending : w.Pending) (d : Declaration L) :
    ({ w with net := w.net.step (.create d.spec) } : World V L).Pending := by
  intro x kind known needs flag
  have modules : (w.net.step (.create d.spec)).modules x =
      if x = w.net.next then some d.spec.build else w.net.modules x := by
    simp [Net.step, Net.webPipelineCreate, Net.addElement, Net.allocate, Function.update_apply]
  by_cases new : x = w.net.next
  · rw [if_pos new] at modules
    unfold needUpdate job at flag
    rw [show ({ w with net := w.net.step (.create d.spec) } : World V L).net.modules x = some d.spec.build
      from modules] at flag
    cases flag
  · rw [if_neg new] at modules
    obtain ⟨s, slot, now⟩ := pending x kind (by simpa [kindOf, frame, modules] using known) needs
      (by simpa [needUpdate, job, modules] using flag)
    exact ⟨s, by simpa [input, modules] using slot, now⟩

theorem step_pending {event : Event L} (allowed : ConnectOk w event) (h : w.step b fuel event = some v) (ok : w.Ok)
    (pending : w.Pending) : v.Pending := by
  cases event with
  | create d =>
    cases h
    exact create_pending pending d
  | connect r source n =>
    cases h
    exact connect_pending ok pending allowed
  | reload r =>
    cases h
    exact reload_pending pending r
  | pass => exact polls_pending ok pending h

/-- In a run whose connect requests are all allowed, every update of a tracker, `Calibration` or
`ImageDisplay` module finds an input stream that has had data, at any point of any pass: `k`
modules of the next pass have been polled when `r` is. -/
theorem updates_have_input {events : List (Event L)} (allowed : Machine.Allowed (step b fuel) ConnectOk empty events)
    (reached : Machine.attempt (step b fuel) empty events = some w) {k : Nat} {kind : Kind}
    (polled : (w.net.elements.take k).foldlM (poll b fuel) w = some v)
    (known : v.kindOf r = some kind) (needs : kind.needsInput = true) (runs : v.updates r = true) :
    v.HasData r := by
  have both : w.Ok ∧ w.Pending :=
    Machine.allowed_invariant (I := fun w => w.Ok ∧ w.Pending)
      (fun _ _ _ ok now both => ⟨step_ok now both.1, step_pending ok now both.1 both.2⟩)
      ⟨empty_ok, fun r kind known => by cases known⟩ allowed reached
  have pending := polls_pending both.1 both.2 polled
  rw [updates, prepare_of_not_polling known (needsInput_plain needs).1] at runs
  exact pending r kind known needs runs

/-! ### A display in front of its camera -/

/-- Every module pushes one frame in each update, unless its input is NULL or it has no output. -/
def oneFrame : Behaviour Unit Unit where
  update := fun kind _ inputs => ((), if kind = .imageDisplay ∨ none ∈ inputs then [] else [.push 0 (some ())])
  receive := fun _ _ _ => ()
  justify := fun _ => none

def displayFirst : List (Event Unit) :=
  [.create { kind := .imageDisplay, inputs := ["IplImage,IplImage8".toList], outputs := [], rest := (), arity := rfl },
    .create { kind := .camera, inputs := [], outputs := ["IplImage".toList, "IplImage8".toList], rest := (),
              arity := rfl },
    .connect 0 (some (1, 0)) 0, .pass]

theorem updates_have_input_displayFirst : ∃ w, Machine.attempt (step oneFrame 2) empty displayFirst = some w ∧
    w.updates 0 = true ∧ w.HasData 0 := by
  have run : (Machine.attempt (step oneFrame 2) empty displayFirst).map
      (fun w => (w.updates 0, w.kindOf 0)) = some (true, some .imageDisplay) := by decide
  obtain ⟨w, reached, facts⟩ := Option.map_eq_some_iff.mp run
  obtain ⟨runs, known⟩ := Prod.mk.inj facts
  have allowed : Machine.Allowed (step oneFrame 2) ConnectOk empty displayFirst := by
    refine ⟨trivial, fun w₁ first => ⟨trivial, fun w₂ second => ⟨?_, fun w₃ third => ⟨trivial, fun _ _ => trivial⟩⟩⟩⟩
    cases first
    cases second
    intro _ flag
    exact absurd flag (by decide)
  exact ⟨w, reached, runs, updates_have_input (k := 0) allowed reached rfl known rfl runs⟩

/-- The display is disconnected between the push and its next poll. -/
theorem updates_without_input : ∃ w,
    Machine.attempt (step oneFrame 2) empty (displayFirst ++ [.connect 0 none 0]) = some w ∧
      w.net.elements[0]? = some 0 ∧ w.kindOf 0 = some .imageDisplay ∧ w.updates 0 = true ∧ ¬w.HasData 0 := by
  have run : (Machine.attempt (step oneFrame 2) empty (displayFirst ++ [.connect 0 none 0])).map
      (fun w => (w.net.elements[0]?, w.kindOf 0, w.updates 0, w.input 0)) =
        some (some 0, some .imageDisplay, true, none) := by decide
  obtain ⟨w, reached, facts⟩ := Option.map_eq_some_iff.mp run
  simp only [Prod.mk.injEq] at facts
  obtain ⟨first, known, runs, input⟩ := facts
  refine ⟨w, reached, first, known, runs, fun data => ?_⟩
  obtain ⟨s, slot, _⟩ := data
  rw [input] at slot
  cases slot

end Movid.Schedule.World
