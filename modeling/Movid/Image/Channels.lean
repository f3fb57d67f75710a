import Movid.Image.Filter
import Movid.Lib.Machine

/-!
# One channel on `IplImage8`

Every image that is pushed on a stream of format `IplImage8` has one channel.
-/

namespace Movid.Image

open Preset (ModuleType)

def single : Str := "IplImage8".toList

def Fits (format : Option Str) (image : Option Channels) : Prop := format = some single → ∀ c, image = some c → c = 1

structure Buffers.Sound (b : Buffers) : Prop where
  first : Fits b.type.outputs[0]? b.outputBuffer
  second : b.dispatches8 = true → b.type.filter8 = true ∧ ∀ c, b.outputBuffer = some c → c = 1
  mask : ∀ c, b.mask = some c → c = 1

/-- A module with an output for one channel makes such a buffer, or takes nothing else. -/
theorem bufferChannels_single (t : ModuleType) (output : t.outputs[0]? = some single) :
    (∀ c, t.bufferChannels c = 1) ∨ (∀ c, t.bufferChannels c = c) ∧ ∀ type ∈ t.inputs, type = single := by
  cases t with
  | grayScale | hsv | yCrCbThreshold => exact Or.inl fun _ => rfl
  | binaryMask | canny | dilate | erode | fingerTipFinder | huObjectFinder | threshold =>
    exact Or.inr ⟨fun _ => rfl, by decide⟩
  | _ => exact absurd output (by decide)

theorem bufferChannels_filter8 {t : ModuleType} (filter8 : t.filter8 = true) (c : Channels) : t.bufferChannels c = c := by
  cases t with
  | backgroundSubtract | equalizeHist | invert | smooth => rfl
  | _ => cases filter8

namespace Buffers

variable {b b' : Buffers} {src : Option Channels}

theorem Sound.new (t : ModuleType) : (Buffers.new t).Sound :=
  ⟨fun _ _ none => (by cases none), fun no => (by cases no), fun _ none => by cases none⟩

theorem Sound.stop (sound : b.Sound) : b.stop.Sound ∧ b.stop.type = b.type := by
  unfold Buffers.stop
  split
  · refine ⟨⟨fun _ _ none => (by cases none), fun second => ⟨(sound.second second).1, fun _ none => by cases none⟩,
      sound.mask⟩, rfl⟩
  · exact ⟨sound, rfl⟩

theorem Sound.allocateBuffers (sound : b.Sound)
    (input : (∀ type ∈ b.type.inputs, type = single) → ∀ c, src = some c → c = 1)
    (done : b.allocateBuffers src = some b') : b'.Sound ∧ b'.type = b.type := by
  cases src with
  | none =>
    simp only [Buffers.allocateBuffers] at done
    split at done
    · cases done
    · cases done
      exact ⟨sound, rfl⟩
  | some c =>
    cases done
    refine ⟨⟨fun output c' same => ?_, fun second => ?_, sound.mask⟩, rfl⟩
    · cases same
      rcases bufferChannels_single b.type output with one | ⟨same, inputs⟩
      · exact one c
      · rw [same c]
        exact input inputs c rfl
    · cases kind : b.type.filter8 with
      | true =>
        simp only [kind, if_true, decide_eq_true_eq] at second
        refine ⟨rfl, fun c' same => ?_⟩
        cases same
        rw [bufferChannels_filter8 kind, second]
      | false =>
        simp only [kind, Bool.false_eq_true, if_false] at second
        exact absurd ((sound.second second).1.symm.trans kind) (by decide)

theorem Sound.notifyData (sound : b.Sound)
    (input : (∀ type ∈ b.type.inputs, type = single) → ∀ c, src = some c → c = 1)
    (done : b.notifyData src = some b') : b'.Sound ∧ b'.type = b.type := by
  unfold Buffers.notifyData at done
  split at done
  · split at done
    · exact sound.allocateBuffers input done
    · cases done
      exact ⟨sound, rfl⟩
  · split at done
    · rename_i mix
      cases done
      have plain : b.type.filter8 = false := by rcases mix with same | same <;> rw [same] <;> rfl
      refine ⟨⟨fun output c same => ?_, fun second => ?_, sound.mask⟩, rfl⟩
      · cases old : b.outputBuffer with
        | some c' =>
          simp only [old, Option.some_or] at same
          exact sound.first output c (old.trans same)
        | none =>
          simp only [old, Option.none_or] at same
          have inputs : ∀ type ∈ b.type.inputs, type = single := by
            rcases mix with combine | mask
            · rw [combine] at output
              exact absurd output (by decide)
            · rw [mask]
              decide
          exact input inputs c same
      · exact absurd ((sound.second second).1.symm.trans plain) (by decide)
    · cases done
      exact ⟨sound, rfl⟩

structure Sends (b : Buffers) (out : Outcome) : Prop where
  sound : out.buffers.Sound
  type : out.buffers.type = b.type
  pushes : ∀ p ∈ out.pushes, Fits b.type.outputs[p.1]? p.2
  misfit : out.misfit = false

theorem Sends.silent (sound : b.Sound) : b.Sends { buffers := b, pushes := [], misfit := false } :=
  ⟨sound, rfl, fun _ none => (by cases none), rfl⟩

theorem Sound.applyFilter (sound : b.Sound) {src : Channels} (input : (∀ type ∈ b.type.inputs, type = single) → src = 1)
    (drawMask : Bool) (found : Nat) : b.Sends (b.applyFilter drawMask found src) := by
  unfold Buffers.applyFilter
  split
  · rename_i checks
    have one : src = 1 := input (by rcases checks with same | same <;> rw [same] <;> decide)
    rw [if_neg (not_not.mpr one)]
    exact Sends.silent sound
  · split
    · rename_i draws
      have one : src = 1 := input (by rw [draws.1]; decide)
      have mask : b.mask.getD src = 1 := by
        cases old : b.mask with
        | none => exact one
        | some c => exact sound.mask c old
      refine ⟨⟨sound.first, sound.second, fun c same => ?_⟩, rfl, fun p member _ c same => ?_, rfl⟩
      · cases same
        exact mask
      · rw [List.eq_of_mem_replicate member] at same
        cases same
        exact mask
    · exact Sends.silent sound

theorem Sound.filterUpdate (sound : b.Sound) (input : (∀ type ∈ b.type.inputs, type = single) → ∀ c, src = some c → c = 1)
    (drawMask : Bool) (found : Nat) : b.Sends (b.filterUpdate drawMask found src) := by
  cases src with
  | none => exact Sends.silent sound
  | some c =>
    have applied := sound.applyFilter (fun inputs => input inputs c rfl) drawMask found
    refine ⟨applied.sound, applied.type, List.forall_mem_append.mpr ⟨applied.pushes, List.forall_mem_singleton.mpr ?_⟩,
      applied.misfit⟩
    -- the buffer goes to the output that was made for it
    split
    · rename_i second
      exact fun _ c same => (applied.sound.second second).2 c same
    · rw [← applied.type]
      exact applied.sound.first

theorem Sound.mixUpdate (sound : b.Sound) (first second : Option (Option Channels)) : b.Sends (b.mixUpdate first second) := by
  refine ⟨sound, rfl, ?_, rfl⟩
  unfold Buffers.mixUpdate
  dsimp only
  split
  · exact List.forall_mem_singleton.mpr sound.first
  · exact fun _ none => by cases none

theorem Sends.color (sound : b.Sound) (color : b.type.outputs[0]? ≠ some single) (images : List (Option Channels)) :
    b.Sends { buffers := b, pushes := images.map fun image => (0, image), misfit := false } := by
  refine ⟨sound, rfl, fun p member format => ?_, rfl⟩
  obtain ⟨image, -, rfl⟩ := List.mem_map.mp member
  exact absurd format color

theorem Sound.cameraUpdate (sound : b.Sound) (camera : b.type = .camera) {out : Outcome}
    (done : b.cameraUpdate src = some out) : b.Sends out := by
  cases src with
  | none =>
    cases done
    exact Sends.silent sound
  | some c =>
    simp only [Buffers.cameraUpdate] at done
    split at done
    · cases done
      exact Sends.color sound (by rw [camera]; decide) [some c]
    · split at done
      · rename_i one
        cases done
        refine ⟨sound, rfl, List.forall_mem_singleton.mpr fun _ c' same => ?_, rfl⟩
        cases same
        exact one
      · cases done

theorem Sound.update (sound : b.Sound) {around : Surroundings} {drawMask : Bool} {first second : Option (Option Channels)}
    {out : Outcome} (input : (∀ type ∈ b.type.inputs, type = single) → ∀ c, first.join = some c → c = 1)
    (done : b.update around drawMask first second = some out) : b.Sends out := by
  unfold Buffers.update at done
  split at done
  · cases done
    exact sound.filterUpdate input drawMask around.found
  split at done
  · cases done
    exact sound.mixUpdate first second
  split at done
  · rename_i camera
    exact sound.cameraUpdate camera done
  split at done
  · rename_i video
    cases done
    exact Sends.color sound (by rw [video]; decide) [around.query]
  split at done
  · rename_i image
    cases done
    have sent := Sends.color sound (by rw [image]; decide) (around.query.toList.map some)
    rw [List.map_map] at sent
    exact sent
  · cases done
    exact Sends.silent sound

end Buffers

/-! ### Every run -/

namespace Images

/-- Streams for one channel have only had such images, and the modules keep it that way. -/
structure Sound (w : Images) : Prop where
  typed : w.net.Typed (·.type.inputs) (·.type.outputs)
  buffers : ∀ r m, w.net.modules r = some m → m.state.Sound
  data : ∀ s c, w.net.getFormat s = single → w.data s = some c → c = 1
  log : ∀ s c, (s, some c) ∈ w.log → w.net.getFormat s = single → c = 1
  unborn : ∀ s, w.net.modules s.owner = none → w.data s = none ∧ ∀ image, (s, image) ∉ w.log
  misfit : w.misfit = false

theorem Sound.initial : initial.Sound :=
  ⟨Net.Typed.empty _ _, fun _ _ none => (by cases none), fun _ _ _ none => (by cases none), fun _ _ none => (by cases none),
    fun _ _ => ⟨rfl, fun _ none => by cases none⟩, rfl⟩

theorem format_of_valid {port : InputPort} {format : Str} (type : port.type = single)
    (valid : port.isStreamValid format = true) : format = single := by
  have fields : Utils.fields single [','] = [single] := Utils.fields_word (by decide) (by decide)
  unfold InputPort.isStreamValid at valid
  rw [type, Utils.inList_eq, fields, Bool.or_eq_true] at valid
  rcases valid with star | listed
  · exact absurd star (by decide)
  · exact List.mem_singleton.mp (of_decide_eq_true (Option.some.inj (eq_of_beq listed)))

variable {w v : Images} {r : ModuleRef} {m : Module Buffers}

theorem Sound.input (sound : w.Sound) (found : w.net.modules r = some m) {n : Nat} {src : Option Channels}
    (image : w.input m n = some src) (inputs : ∀ type ∈ m.state.type.inputs, type = single) (c : Channels)
    (same : src = some c) : c = 1 := by
  obtain ⟨s, points, rfl⟩ := Option.map_eq_some_iff.mp image
  obtain ⟨port, here, points⟩ := Option.bind_eq_some_iff.mp points
  have member := List.mem_of_getElem? here
  have type : port.type = single := by
    apply inputs _
    rw [← (sound.typed.ports r m found).1]
    exact List.mem_map_of_mem member
  obtain ⟨-, valid⟩ := sound.typed.slots r m found port member s points
  exact sound.data s c (format_of_valid type valid) same

theorem Sound.outputs (sound : w.Sound) (found : w.net.modules r = some m) {i : Nat}
    (is : w.net.getFormat ⟨r, i⟩ = single) : m.state.type.outputs[i]? = some single := by
  have declared : m.outputs = m.state.type.outputs := (sound.typed.ports r m found).2
  unfold Net.getFormat at is
  rw [found, Option.bind_some, declared] at is
  cases here : m.state.type.outputs[i]? with
  | none =>
    rw [here] at is
    cases is
  | some format =>
    rw [here] at is
    exact congrArg some is

theorem setState_getFormat (w : Images) (r : ModuleRef) (b : Buffers) (s : StreamRef) :
    (w.setState r b).net.getFormat s = w.net.getFormat s := Net.updateState_getFormat w.net r (fun _ => b) s

theorem Sound.setState (sound : w.Sound) (found : w.net.modules r = some m) {b : Buffers} (new : b.Sound)
    (type : b.type = m.state.type) : (w.setState r b).Sound := by
  refine ⟨?_, fun x m' here => ?_, fun s c is => ?_, fun s c member is => ?_, fun s gone => ?_, sound.misfit⟩
  · refine sound.typed.updateState r (f := fun _ => b) fun m' here => ?_
    obtain rfl : m = m' := Option.some.inj (found.symm.trans here)
    rw [type]
    exact ⟨rfl, rfl⟩
  · change (w.net.updateModule r _).modules x = some m' at here
    rw [Net.updateModule_modules] at here
    split at here
    · obtain ⟨old, -, rfl⟩ := Option.map_eq_some_iff.mp here
      exact new
    · exact sound.buffers x m' here
  · rw [setState_getFormat] at is
    exact sound.data s c is
  · rw [setState_getFormat] at is
    exact sound.log s c member is
  · exact sound.unborn s (Net.updateModule_live.mp gone)

theorem Sound.push (sound : w.Sound) (live : w.net.modules r ≠ none) {pushes : List (Nat × Option Channels)}
    (fits : ∀ p ∈ pushes, w.net.getFormat ⟨r, p.1⟩ = single → ∀ c, p.2 = some c → c = 1) : (w.push r pushes).Sound := by
  unfold Images.push
  induction pushes generalizing w with
  | nil => exact sound
  | cons p rest ih =>
    obtain ⟨here, later⟩ := List.forall_mem_cons.mp fits
    rw [List.foldl_cons]
    refine ih ⟨sound.typed, sound.buffers, fun s c is same => ?_, fun s c member is => ?_, fun s gone => ?_, sound.misfit⟩
      live later
    · dsimp only at is same
      rw [Function.update_apply] at same
      split at same
      · rename_i pushed
        rw [pushed] at is
        exact here is c same
      · exact sound.data s c is same
    · rcases List.mem_append.mp member with before | now
      · exact sound.log s c before is
      · obtain ⟨rfl, image⟩ := Prod.mk.inj (List.mem_singleton.mp now)
        exact here is c image.symm
    · have other : s ≠ ⟨r, p.1⟩ := by
        rintro rfl
        exact live gone
      obtain ⟨empty, never⟩ := sound.unborn s gone
      refine ⟨?_, fun image member => ?_⟩
      · dsimp only
        rw [Function.update_of_ne other]
        exact empty
      · rcases List.mem_append.mp member with before | now
        · exact never image before
        · exact other (Prod.mk.inj (List.mem_singleton.mp now)).1

theorem Sound.create (sound : w.Sound) (type : ModuleType) :
    Sound { w with net := w.net.webPipelineCreate { inputs := type.inputs, outputs := type.outputs, state := .new type } } := by
  have born (s : StreamRef) (alive : w.net.modules s.owner ≠ none) : s.owner ≠ w.net.next := fun same =>
    alive (sound.typed.fresh _ (Nat.le_of_eq same.symm))
  refine ⟨sound.typed.create _ rfl rfl, fun x m found => ?_, fun s c is same => ?_, fun s c member is => ?_, fun s gone => ?_,
    sound.misfit⟩
  · rw [Net.create_modules] at found
    split at found
    · cases found
      exact Buffers.Sound.new type
    · exact sound.buffers x m found
  · have alive : w.net.modules s.owner ≠ none := fun gone => by
      rw [(sound.unborn s gone).1] at same
      cases same
    rw [Net.create_getFormat (born s alive)] at is
    exact sound.data s c is same
  · have alive : w.net.modules s.owner ≠ none := fun gone => (sound.unborn s gone).2 _ member
    rw [Net.create_getFormat (born s alive)] at is
    exact sound.log s c member is
  · rw [Net.create_modules] at gone
    split at gone
    · cases gone
    · exact sound.unborn s gone

theorem Sound.setInput (sound : w.Sound) (r : ModuleRef) (source : Option (ModuleRef × Int)) (n : Int) :
    Sound { w with net := w.net.step (.setInput r source n) } := by
  refine ⟨sound.typed.connect r source n, fun x m found => ?_, fun s c is => ?_, fun s c member is => ?_, fun s gone => ?_,
    sound.misfit⟩
  · obtain ⟨old, before, same⟩ := Net.connect_state found
    rw [← same]
    exact sound.buffers x old before
  · rw [Net.connect_getFormat] at is
    exact sound.data s c is
  · rw [Net.connect_getFormat] at is
    exact sound.log s c member is
  · exact sound.unborn s (Net.connect_live.mp gone)

theorem Sound.step {event : Event} (h : w.step event = some v) (sound : w.Sound) : v.Sound := by
  cases event with
  | create type =>
    cases h
    exact sound.create type
  | setInput r source n =>
    cases h
    exact sound.setInput r source n
  | notifyData r n =>
    obtain ⟨m, found, h⟩ := Option.bind_eq_some_iff.mp h
    obtain ⟨src, image, h⟩ := Option.bind_eq_some_iff.mp h
    obtain ⟨b, done, h⟩ := Option.bind_eq_some_iff.mp h
    cases h
    obtain ⟨new, type⟩ := (sound.buffers r m found).notifyData (fun inputs c => sound.input found image inputs c) done
    exact sound.setState found new type
  | update r around =>
    obtain ⟨m, found, h⟩ := Option.bind_eq_some_iff.mp h
    obtain ⟨out, done, h⟩ := Option.bind_eq_some_iff.mp h
    cases h
    have input (inputs : ∀ type ∈ m.state.type.inputs, type = single) (c : Channels)
        (same : (w.input m 0).join = some c) : c = 1 :=
      sound.input found (Option.join_eq_some_iff.mp same) inputs c rfl
    have sends := (sound.buffers r m found).update input done
    have next := sound.setState found sends.sound sends.type
    have pushed : ((w.setState r out.buffers).push r out.pushes).Sound := by
      refine next.push (fun gone => ?_) fun p member is => ?_
      · rw [Net.updateModule_live.mp gone] at found
        cases found
      · rw [setState_getFormat] at is
        exact sends.pushes p member (sound.outputs found is)
    exact ⟨pushed.typed, pushed.buffers, pushed.data, pushed.log, pushed.unborn, by rw [pushed.misfit, sends.misfit]; rfl⟩
  | stop r =>
    obtain ⟨m, found, h⟩ := Option.bind_eq_some_iff.mp h
    cases h
    obtain ⟨new, type⟩ := (sound.buffers r m found).stop
    exact sound.setState found new type

/-- Whatever the graph and the order of the steps: every image that was ever pushed on a stream of
format `IplImage8` has one channel, and no module has met another image on its input. -/
theorem run_single_channel {events : List Event} {w : Images} (reached : Machine.attempt step initial events = some w) :
    (∀ s c, (s, some c) ∈ w.log → w.net.getFormat s = "IplImage8".toList → c = 1) ∧ w.misfit = false := by
  have sound : w.Sound := Machine.attempt_invariant (I := Sound) (fun _ _ _ now sound => sound.step now) Sound.initial reached
  exact ⟨sound.log, sound.misfit⟩

/-- A color camera in front of GrayScale and Threshold. -/
def gray : List Event :=
  [.create .camera, .create .grayScale, .create .threshold, .setInput 1 (some (0, 0)) 0, .setInput 2 (some (1, 0)) 0,
    .update 0 ⟨some 3, 0⟩, .notifyData 1 0, .update 1 ⟨none, 0⟩, .notifyData 2 0, .update 2 ⟨none, 0⟩]

theorem gray_single_channel : ∃ w, Machine.attempt step initial gray = some w ∧
    w.log = [(⟨0, 0⟩, some 3), (⟨1, 0⟩, some 1), (⟨2, 0⟩, some 1)] ∧
    (∀ s c, (s, some c) ∈ w.log → w.net.getFormat s = "IplImage8".toList → c = 1) ∧ w.misfit = false := by
  have run : (Machine.attempt step initial gray).map (·.log) =
      some [(⟨0, 0⟩, some 3), (⟨1, 0⟩, some 1), (⟨2, 0⟩, some 1)] := by decide
  obtain ⟨w, reached, log⟩ := Option.map_eq_some_iff.mp run
  exact ⟨w, reached, log, run_single_channel reached⟩

end Images

end Movid.Image
