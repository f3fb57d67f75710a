import Movid.Blob.Tracking
import Movid.Graph.Typing
import Movid.Lib.Machine
import Movid.Tracker.Identity

/-!
# Pipelines of finders, trackers and Calibration

Every list of blobs that is ever pushed, for any graph and any order of the updates.
-/

namespace Movid.Blobs

open Preset (Platform Value ModuleType)
open Tracker (Settings Matching Kind)

variable {P : Platform}

/-- A module with the list that a tracker keeps for the next frame. -/
structure State (P : Platform) where
  type : ModuleType
  oldBlobs : List (Container P)

def State.new (type : ModuleType) : State P := { type, oldBlobs := [] }

def State.keep (blobs : List (Container P)) (s : State P) : State P := { s with oldBlobs := blobs }

/-- What an update depends on beside the blobs: what is found in the image, the properties of a tracker, or
the mode of a Calibration module and its subdivision. -/
inductive Surroundings (P : Platform) where
  | sight (sight : Sight P)
  | settings (settings : Settings P.Double)
  | calibration (calibrate calibrated : Bool) (locate : P.Double → P.Double → Location P.Double)

structure Outcome (P : Platform) where
  oldBlobs : List (Container P)
  counter : Int
  push : Option (Nat × List (Container P))

def kind : ModuleType → Option Kind
  | .greedyBlobTracker => some .greedy
  | .munkresBlobTracker => some .munkres
  | _ => none

variable (ops : Doubles P.Double) (mtdevMatch : Matching)

/-- `update`. The input is NULL, or holds a list or not yet. -/
def State.update (s : State P) (counter : Int) (input : Option (Option (List (Container P)))) :
    Surroundings P → Option (Outcome P)
  | .sight sight =>
    if s.type = sight.finder then some { oldBlobs := s.oldBlobs, counter, push := some (1, sight.blobs ops) } else none
  | .settings settings => do
    let kind ← kind s.type
    let blobs ← input.join
    let u ← Blobs.update ops mtdevMatch kind settings counter s.oldBlobs blobs
    some { oldBlobs := u.list, counter := u.counter, push := some (0, u.adolescent) }
  | .calibration calibrate calibrated locate =>
    if s.type = .calibration then do
      let data ← input
      if calibrated && !calibrate then
        let blobs ← data
        let transformed ← blobs.mapM (transformPoint ops locate)
        some { oldBlobs := s.oldBlobs, counter, push := some (0, transformed) }
      else some { oldBlobs := s.oldBlobs, counter, push := none }
    else none

/-- Calibration finds no blob that has a tag for more than a position and an id on a vertex. -/
def Surroundings.Spares (blobs : List (Container P)) : Surroundings P → Prop
  | .calibration calibrate calibrated locate => calibrated = true → calibrate = false →
    ∀ c ∈ blobs, atVertex ops locate c = true → Plain c
  | _ => True

instance Surroundings.decidableSpares (blobs : List (Container P)) : (around : Surroundings P) →
    Decidable (around.Spares ops blobs)
  | .calibration calibrate calibrated locate =>
    inferInstanceAs (Decidable (calibrated = true → calibrate = false → ∀ c ∈ blobs, atVertex ops locate c = true → Plain c))
  | .sight _ | .settings _ => .isTrue trivial

/-- The graph, `id_counter`, the list on each stream, and what was pushed so far. -/
structure Pipeline (P : Platform) where
  net : Net (State P)
  counter : Int
  data : StreamRef → Option (List (Container P))
  log : List (StreamRef × List (Container P))

inductive Event (P : Platform) where
  | create (type : ModuleType)
  | setInput (r : ModuleRef) (source : Option (ModuleRef × Int)) (n : Int)
  | update (r : ModuleRef) (around : Surroundings P)

namespace Pipeline

def initial : Pipeline P := { net := .empty, counter := 0, data := fun _ => none, log := [] }

def input (w : Pipeline P) (m : Module (State P)) : Option (Option (List (Container P))) :=
  (m.inputs[0]?.bind (·.stream)).map w.data

/-- `none` ends the program, or is a step that cannot happen. -/
def step (w : Pipeline P) : Event P → Option (Pipeline P)
  | .create type =>
    some { w with net := w.net.step (.create { inputs := type.inputs, outputs := type.outputs, state := .new type }) }
  | .setInput r source n => some { w with net := w.net.step (.setInput r source n) }
  | .update r around => do
    let m ← w.net.modules r
    let out ← m.state.update ops mtdevMatch w.counter (w.input m) around
    some {
      net := w.net.updateModule r fun m => { m with state := m.state.keep out.oldBlobs }
      counter := out.counter
      data := out.push.elim w.data fun p => Function.update w.data ⟨r, p.1⟩ (some p.2)
      log := w.log ++ out.push.toList.map fun p => (⟨r, p.1⟩, p.2) }

def delivered (w : Pipeline P) (r : ModuleRef) : List (Container P) :=
  ((w.net.modules r).bind fun m => (w.input m).join).getD []

def Spares (w : Pipeline P) : Event P → Prop
  | .update r around => around.Spares ops (w.delivered r)
  | _ => True

instance decidableSpares (w : Pipeline P) : (event : Event P) → Decidable (w.Spares ops event)
  | .update r around => around.decidableSpares ops (w.delivered r)
  | .create _ | .setInput .. => .isTrue trivial

variable {ops mtdevMatch} {w v : Pipeline P} {r : ModuleRef} {m : Module (State P)} {around : Surroundings P}

/-! ### Where blobs are pushed -/

structure Placed (w : Pipeline P) : Prop where
  typed : w.net.Typed (·.type.inputs) (·.type.outputs)
  log : ∀ s blobs, (s, blobs) ∈ w.log → w.net.modules s.owner ≠ none ∧
    (w.net.getFormat s = "blob".toList ∨ w.net.getFormat s = "trackedblob".toList)

theorem update_output {s : State P} {counter : Int} {input : Option (Option (List (Container P)))} {out : Outcome P}
    (done : s.update ops mtdevMatch counter input around = some out) {i : Nat} {blobs : List (Container P)}
    (pushed : out.push = some (i, blobs)) :
    s.type.outputs[i]? = some "blob".toList ∨ s.type.outputs[i]? = some "trackedblob".toList := by
  cases around with
  | sight sight =>
    simp only [State.update] at done
    split at done
    · rename_i type
      cases done
      cases pushed
      rw [type]
      cases sight <;> exact Or.inl rfl
    · cases done
  | settings settings =>
    obtain ⟨kind, tracker, done⟩ := Option.bind_eq_some_iff.mp done
    obtain ⟨given, -, done⟩ := Option.bind_eq_some_iff.mp done
    obtain ⟨u, -, done⟩ := Option.bind_eq_some_iff.mp done
    cases done
    cases pushed
    unfold Blobs.kind at tracker
    split at tracker
    · rename_i type
      rw [type]
      exact Or.inr rfl
    · rename_i type
      rw [type]
      exact Or.inr rfl
    · cases tracker
  | calibration calibrate calibrated locate =>
    simp only [State.update] at done
    split at done
    · rename_i type
      obtain ⟨data, -, done⟩ := Option.bind_eq_some_iff.mp done
      split at done
      · obtain ⟨given, -, done⟩ := Option.bind_eq_some_iff.mp done
        obtain ⟨transformed, -, done⟩ := Option.bind_eq_some_iff.mp done
        cases done
        cases pushed
        rw [type]
        exact Or.inr rfl
      · cases done
        cases pushed
    · cases done

theorem Placed.step {event : Event P} (h : w.step ops mtdevMatch event = some v) (placed : w.Placed) : v.Placed := by
  cases event with
  | create type =>
    cases h
    refine ⟨placed.typed.create _ rfl rfl, fun s blobs member => ?_⟩
    obtain ⟨live, format⟩ := placed.log s blobs member
    have other : s.owner ≠ w.net.next := fun same => live (placed.typed.fresh _ (Nat.le_of_eq same.symm))
    refine ⟨?_, ?_⟩
    · change (w.net.webPipelineCreate _).modules s.owner ≠ none
      rw [Net.create_modules, if_neg other]
      exact live
    · change (w.net.webPipelineCreate _).getFormat s = _ ∨ (w.net.webPipelineCreate _).getFormat s = _
      rw [Net.create_getFormat other]
      exact format
  | setInput r source n =>
    cases h
    refine ⟨placed.typed.connect r source n, fun s blobs member => ?_⟩
    obtain ⟨live, format⟩ := placed.log s blobs member
    rw [Net.connect_getFormat]
    exact ⟨fun gone => live (Net.connect_live.mp gone), format⟩
  | update r around =>
    obtain ⟨m, found, h⟩ := Option.bind_eq_some_iff.mp h
    obtain ⟨out, done, h⟩ := Option.bind_eq_some_iff.mp h
    cases h
    refine ⟨placed.typed.updateState r (f := State.keep out.oldBlobs) fun _ _ => ⟨rfl, rfl⟩, fun s blobs member => ?_⟩
    rw [Net.updateState_getFormat, ne_eq, Net.updateModule_live]
    rcases List.mem_append.mp member with before | now
    · exact placed.log s blobs before
    · obtain ⟨⟨i, blobs⟩, pushed, same⟩ := List.mem_map.mp now
      cases same
      refine ⟨by rw [found]; exact Option.some_ne_none m, ?_⟩
      have declared : m.outputs = m.state.type.outputs := (placed.typed.ports r m found).2
      unfold Net.getFormat
      rw [found, Option.bind_some, declared]
      rcases update_output done (Option.mem_toList.mp pushed) with blob | tracked
      · rw [blob]
        exact Or.inl rfl
      · rw [tracked]
        exact Or.inr rfl

/-! ### What is pushed -/

theorem update_pushes {s : State P} {counter : Int} {input : Option (Option (List (Container P)))} {out : Outcome P}
    (done : s.update ops mtdevMatch counter input around = some out) (old : Honest s.oldBlobs)
    (given : ∀ blobs, input.join = some blobs → Honest blobs) :
    Honest out.oldBlobs ∧ ((∀ p ∈ out.push, Honest p.2) ↔ around.Spares ops (input.join.getD [])) := by
  cases around with
  | sight sight =>
    simp only [State.update] at done
    split at done
    · cases done
      refine ⟨old, iff_of_true (fun p pushed => ?_) trivial⟩
      cases pushed
      exact fun c => sight.blobs_honour ops
    · cases done
  | settings settings =>
    obtain ⟨kind, -, done⟩ := Option.bind_eq_some_iff.mp done
    obtain ⟨blobs, here, done⟩ := Option.bind_eq_some_iff.mp done
    obtain ⟨u, updated, done⟩ := Option.bind_eq_some_iff.mp done
    cases done
    obtain ⟨list, adolescent⟩ := update_honest updated old (given blobs here)
    refine ⟨list, iff_of_true (fun p pushed => ?_) trivial⟩
    cases pushed
    exact adolescent
  | calibration calibrate calibrated locate =>
    simp only [State.update] at done
    split at done
    · obtain ⟨data, here, done⟩ := Option.bind_eq_some_iff.mp done
      split at done
      · rename_i mode
        obtain ⟨blobs, holds, done⟩ := Option.bind_eq_some_iff.mp done
        obtain ⟨transformed, all, done⟩ := Option.bind_eq_some_iff.mp done
        cases done
        have mode := (Bool.and_eq_true _ _).mp mode
        have read : input.join = some blobs := by rw [here, holds]; rfl
        refine ⟨old, ?_⟩
        rw [read]
        have transforms := transform_honest_iff all (given blobs read)
        refine ⟨fun pushed _ _ => transforms.mp (pushed _ rfl), fun spares p pushed => ?_⟩
        cases pushed
        exact transforms.mpr (spares mode.1 (Bool.not_eq_true' _ ▸ mode.2))
      · rename_i mode
        cases done
        refine ⟨old, iff_of_true (fun p pushed => ?_) fun on off => ?_⟩
        · cases pushed
        · rw [on, off] at mode
          exact absurd rfl mode
    · cases done

/-- Every list that was pushed keeps its promises, and so do the lists that modules will read. -/
structure Sound (w : Pipeline P) : Prop where
  log : ∀ s blobs, (s, blobs) ∈ w.log → Honest blobs
  data : ∀ s blobs, w.data s = some blobs → Honest blobs
  old : ∀ r m, w.net.modules r = some m → Honest m.state.oldBlobs

theorem Sound.initial : (initial : Pipeline P).Sound :=
  ⟨fun _ _ none => (by cases none), fun _ _ none => (by cases none), fun _ _ none => by cases none⟩

theorem Sound.given (sound : w.Sound) {m : Module (State P)} {blobs : List (Container P)}
    (here : (w.input m).join = some blobs) : Honest blobs := by
  obtain ⟨s, -, found⟩ := Option.map_eq_some_iff.mp (Option.join_eq_some_iff.mp here)
  exact sound.data s blobs found

theorem delivered_eq (found : w.net.modules r = some m) : w.delivered r = (w.input m).join.getD [] := by
  unfold delivered
  rw [found, Option.bind_some]

theorem Sound.needs {event : Event P} (h : w.step ops mtdevMatch event = some v) (sound : w.Sound)
    (log : ∀ s blobs, (s, blobs) ∈ v.log → Honest blobs) : w.Spares ops event := by
  cases event with
  | create | setInput => trivial
  | update r around =>
    obtain ⟨m, found, h⟩ := Option.bind_eq_some_iff.mp h
    obtain ⟨out, done, h⟩ := Option.bind_eq_some_iff.mp h
    cases h
    change around.Spares ops (w.delivered r)
    rw [delivered_eq found]
    refine (update_pushes done (sound.old r m found) fun _ => sound.given).2.mp fun p pushed => ?_
    exact log ⟨r, p.1⟩ p.2 (List.mem_append_right _ (List.mem_map_of_mem (Option.mem_toList.mpr pushed)))

theorem Sound.step {event : Event P} (spares : w.Spares ops event) (h : w.step ops mtdevMatch event = some v)
    (sound : w.Sound) : v.Sound := by
  cases event with
  | create type =>
    cases h
    refine ⟨sound.log, sound.data, fun x m found => ?_⟩
    change (w.net.webPipelineCreate _).modules x = some m at found
    rw [Net.create_modules] at found
    split at found
    · cases found
      exact fun _ none => by cases none
    · exact sound.old x m found
  | setInput r source n =>
    cases h
    refine ⟨sound.log, sound.data, fun x m found => ?_⟩
    obtain ⟨old, before, same⟩ := Net.connect_state found
    rw [← same]
    exact sound.old x old before
  | update r around =>
    obtain ⟨m, found, h⟩ := Option.bind_eq_some_iff.mp h
    obtain ⟨out, done, h⟩ := Option.bind_eq_some_iff.mp h
    cases h
    change around.Spares ops (w.delivered r) at spares
    rw [delivered_eq found] at spares
    obtain ⟨kept, honest⟩ := update_pushes done (sound.old r m found) fun _ => sound.given
    have pushed := honest.mpr spares
    refine ⟨fun s blobs member => ?_, fun s blobs here => ?_, fun x m' here => ?_⟩
    · rcases List.mem_append.mp member with before | now
      · exact sound.log s blobs before
      · obtain ⟨p, there, same⟩ := List.mem_map.mp now
        cases same
        exact pushed p (Option.mem_toList.mp there)
    · dsimp only at here
      cases push : out.push with
      | none =>
        rw [push] at here
        exact sound.data s blobs here
      | some p =>
        rw [push, Option.elim_some, Function.update_apply] at here
        split at here
        · cases here
          exact pushed p push
        · exact sound.data s blobs here
    · rw [Net.updateModule_modules] at here
      split at here
      · obtain ⟨old, -, rfl⟩ := Option.map_eq_some_iff.mp here
        exact kept
      · exact sound.old x m' here

theorem log_grows {event : Event P} (h : w.step ops mtdevMatch event = some v) : w.log ⊆ v.log := by
  cases event with
  | create | setInput =>
    cases h
    exact fun _ member => member
  | update r around =>
    obtain ⟨m, -, h⟩ := Option.bind_eq_some_iff.mp h
    obtain ⟨out, -, h⟩ := Option.bind_eq_some_iff.mp h
    cases h
    exact List.subset_append_left _ _

/-- The blobs that are pushed in a run all have what their tags promise exactly if Calibration never finds
a blob with one of the tags `size`, `node` and `fiducial` on a vertex. -/
theorem run_honours_iff {events : List (Event P)}
    (reached : Machine.attempt (step ops mtdevMatch) initial events = some w) :
    (∀ s blobs, (s, blobs) ∈ w.log → w.net.getFormat s = "blob".toList ∨ w.net.getFormat s = "trackedblob".toList →
      ∀ c ∈ blobs, c.Honours) ↔ Machine.Allowed (step ops mtdevMatch) (Spares ops) initial events := by
  have placed : w.Placed := Machine.attempt_invariant (I := Placed) (fun _ _ _ now placed => placed.step now)
    ⟨Net.Typed.empty _ _, fun _ _ none => by cases none⟩ reached
  have always : (∀ n p, Machine.attempt (step ops mtdevMatch) initial (events.take n) = some p →
      ∀ s blobs, (s, blobs) ∈ p.log → Honest blobs) ↔ Machine.Allowed (step ops mtdevMatch) (Spares ops) initial events :=
    Machine.forall_take_iff_allowed (I := Sound) (fun _ sound => sound.log) (fun _ _ _ spares now sound => sound.step spares now)
      (fun _ _ _ now sound => sound.needs now) Sound.initial reached
  rw [← always]
  constructor
  · intro honours n p taken s blobs member
    obtain ⟨q, same, rest⟩ := Machine.attempt_take reached n
    obtain rfl : p = q := Option.some.inj (taken.symm.trans same)
    have grown : p.log ⊆ w.log := Machine.attempt_invariant (I := fun v => p.log ⊆ v.log)
      (fun _ _ _ now grown => List.Subset.trans grown (log_grows now)) (fun _ member => member) rest
    exact honours s blobs (grown member) (placed.log s blobs (grown member)).2
  · intro good s blobs member _
    exact good events.length w (by rw [List.take_length]; exact reached) s blobs member

def wholeDoubles : Doubles Platform.whole.Double := Tracker.Doubles.integers

/-- BlobFinder sees a pixel in the corner until the tracker pushes it, and Calibration finds it where `locate`
says. -/
def cornered (locate : Int → Int → Location Int) : List (Event Platform.whole) :=
  let pixel : Event Platform.whole := .update 0 (.sight (.contours 1 16 ⟨10, 10⟩ [⟨0, 0, 1, 1⟩]))
  let track : Event Platform.whole := .update 1 (.settings .default)
  [.create .blobFinder, .create .greedyBlobTracker, .create .calibration, .setInput 1 (some (0, 1)) 0,
    .setInput 2 (some (1, 0)) 0, pixel, track, pixel, track, pixel, track, pixel, track,
    .update 2 (.calibration false true locate)]

/-- The corner is inside a triangle. -/
def wide : Int → Int → Location Int := fun _ _ => .inside ⟨-1, -1, 0, 0⟩ ⟨1, -1, 2, 0⟩ ⟨-1, 1, 0, 2⟩

theorem wide_honours : ∃ w, Machine.attempt (step wholeDoubles Tracker.matchNothing) initial (cornered wide) = some w ∧
    w.log.getLast?.map (fun p => (p.1, p.2.map (·.hasProperty "width"))) = some (⟨2, 0⟩, [true]) ∧
    Machine.Allowed (step wholeDoubles Tracker.matchNothing) (Spares wholeDoubles) initial (cornered wide) ∧
    ∀ s blobs, (s, blobs) ∈ w.log → w.net.getFormat s = "blob".toList ∨ w.net.getFormat s = "trackedblob".toList →
      ∀ c ∈ blobs, c.Honours := by
  have run : ((Machine.attempt (step wholeDoubles Tracker.matchNothing) initial (cornered wide)).map fun w =>
      w.log.getLast?.map fun p => (p.1, p.2.map (·.hasProperty "width"))) = some (some (⟨2, 0⟩, [true])) := by decide +kernel
  have allowed : Machine.Allowed (step wholeDoubles Tracker.matchNothing) (Spares wholeDoubles) initial
    (cornered wide) := by decide +kernel
  obtain ⟨w, reached, last⟩ := Option.map_eq_some_iff.mp run
  exact ⟨w, reached, last, allowed, (run_honours_iff reached).mpr allowed⟩

/-- The corner is a vertex. -/
def pinned : Int → Int → Location Int := fun x y =>
  if x = 0 ∧ y = 0 then .vertex ⟨0, 0, 0, 0⟩ else .inside ⟨0, 0, 0, 0⟩ ⟨1, 0, 1, 0⟩ ⟨0, 1, 0, 1⟩

theorem size_lost_at_vertex : ∃ w,
    Machine.attempt (step wholeDoubles Tracker.matchNothing) initial (cornered pinned) = some w ∧
    ¬ ∀ s blobs, (s, blobs) ∈ w.log → w.net.getFormat s = "blob".toList ∨ w.net.getFormat s = "trackedblob".toList →
      ∀ c ∈ blobs, c.Honours := by
  have run : ((Machine.attempt (step wholeDoubles Tracker.matchNothing) initial (cornered pinned)).map fun w =>
      (w.net.getFormat ⟨2, 0⟩, w.log.getLast?.map fun p =>
        (p.1, p.2.map fun c => (decide (c.implements = some "pos,size,tracked".toList), c.hasProperty "width")))) =
      some ("trackedblob".toList, some (⟨2, 0⟩, [(true, false)])) := by decide +kernel
  obtain ⟨w, reached, same⟩ := Option.map_eq_some_iff.mp run
  obtain ⟨format, last⟩ := Prod.mk.inj same
  obtain ⟨⟨s, blobs⟩, pushed, entry⟩ := Option.map_eq_some_iff.mp last
  obtain ⟨rfl, blob⟩ := Prod.mk.inj entry
  obtain ⟨c, rfl, read⟩ := List.map_eq_singleton_iff.mp blob
  obtain ⟨implements, lost⟩ := Prod.mk.inj read
  refine ⟨w, reached, fun honours => ?_⟩
  have tagged : "size".toList ∈ c.tags := by
    have listed : Container.inTags "size" "pos,size,tracked".toList = some true := by decide
    rw [Container.inTags_eq] at listed
    rw [Container.tags_eq (of_decide_eq_true implements)]
    exact of_decide_eq_true (Option.some.inj listed)
  have kept := honours ⟨2, 0⟩ [c] (List.mem_of_getLast? pushed) (Or.inr format) c List.mem_cons_self
    ("size", ["width", "height"]) (by decide) tagged "width" List.mem_cons_self
  rw [lost] at kept
  cases kept

end Pipeline

end Movid.Blobs
