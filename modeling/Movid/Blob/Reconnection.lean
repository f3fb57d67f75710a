import Movid.Blob.Pipeline
import Movid.Tracker.Marks

/-!
# Trackers that are connected to another finder

A tracker remembers blobs when its input changes, and `trackAngles` reads what it has written to the old blob of the
same id. It writes to the blobs of HuObjectFinder only.
-/

namespace Movid.Tracker

variable {D : Type} {ops : Doubles D} {mtdevMatch : Matching}

/-- The finder asks for the angle of the blob to be tracked. -/
def Turns (b : Blob D) : Prop := inTags "volatileangle" b.implements = some true

instance decidableTurns (b : Blob D) : Decidable (Turns b) := inferInstanceAs (Decidable (_ = _))

/-- `trackAngles` only reads properties that exist. -/
def Reads (s : System D) : Event D → Prop
  | .finish i => ∀ t ∈ s.trackers[i]?, ∀ p ∈ t.progress, p.todo = [] → ∀ detected ∈ p.detected t.kind, ∀ b ∈ detected, Turns b →
    ∀ o ∈ p.old.find? (·.blobId == b.blobId), o.fallenOver.isSome ∧ o.lastAngle.isSome
  | _ => True

/-- `trackBlobs` has matched no blob whose angle is to be tracked with one of another kind. -/
def Alike (s : System D) : Event D → Prop
  | .finish i => ∀ t ∈ s.trackers[i]?, ∀ p ∈ t.progress, p.todo = [] → ∀ detected ∈ p.detected t.kind, ∀ b ∈ detected, Turns b →
    ∀ o ∈ p.old, o.blobId = b.blobId → Turns o
  | _ => True

instance decidableReads (s : System D) : (event : Event D) → Decidable (Reads s event)
  | .finish i => inferInstanceAs (Decidable (∀ t ∈ s.trackers[i]?, ∀ p ∈ t.progress, p.todo = [] → ∀ detected ∈ p.detected t.kind,
      ∀ b ∈ detected, Turns b → ∀ o ∈ p.old.find? (·.blobId == b.blobId), o.fallenOver.isSome ∧ o.lastAngle.isSome))
  | .begin .. | .track _ => .isTrue trivial

instance decidableAlike (s : System D) : (event : Event D) → Decidable (Alike s event)
  | .finish i => inferInstanceAs (Decidable (∀ t ∈ s.trackers[i]?, ∀ p ∈ t.progress, p.todo = [] → ∀ detected ∈ p.detected t.kind,
      ∀ b ∈ detected, Turns b → ∀ o ∈ p.old, o.blobId = b.blobId → Turns o))
  | .begin .. | .track _ => .isTrue trivial

/-! ### Who has the properties -/

/-- The blob has the properties exactly if its angle is tracked. -/
def Marked (b : Blob D) : Prop := (b.fallenOver.isSome ↔ Turns b) ∧ (b.lastAngle.isSome ↔ Turns b)

def Unmarked (b : Blob D) : Prop := b.fallenOver = none ∧ b.lastAngle = none

theorem marked_rests : Rests (Marked (D := D)) := by
  rintro b c ⟨implements, fallenOver, lastAngle⟩ marked
  unfold Marked Turns
  rw [implements, fallenOver, lastAngle]
  exact marked

theorem unmarked_rests : Rests (Unmarked (D := D)) := by
  rintro b c ⟨_, fallenOver, lastAngle⟩ unmarked
  exact ⟨fallenOver.trans unmarked.1, lastAngle.trans unmarked.2⟩

theorem trackAngle_marked {settings : Settings D} {old : List (Blob D)} {b b' : Blob D} (h : trackAngle ops settings old b = some b')
    (unmarked : Unmarked b) : Marked b' := by
  obtain ⟨tracked, tag, h⟩ := Option.bind_eq_some_iff.mp h
  split at h
  · rename_i on
    subst on
    obtain ⟨rad, _, h⟩ := Option.bind_eq_some_iff.mp h
    simp only [] at h
    split at h
    · cases h
      exact ⟨iff_of_true rfl tag, iff_of_true rfl tag⟩
    · obtain ⟨fallenOver, _, h⟩ := Option.bind_eq_some_iff.mp h
      obtain ⟨lastAngle, _, same⟩ := Option.map_eq_some_iff.mp h
      cases same
      exact ⟨iff_of_true rfl tag, iff_of_true rfl tag⟩
  · rename_i off
    cases h
    have still : ¬ Turns b := fun turns => off (Option.some.inj (tag.symm.trans turns))
    refine ⟨iff_of_false ?_ still, iff_of_false ?_ still⟩
    · rw [unmarked.1]
      exact nofun
    · rw [unmarked.2]
      exact nofun

/-- In every tracker the old blobs are `Marked` and the new ones not yet. -/
def System.Sorted (s : System D) : Prop := s.Holds (fun _ => Marked) fun _ => Unmarked

theorem System.Sorted.step (injective : mtdevMatch.Injective) {s s' : System D} {event : Event D} (sorted : s.Sorted)
    (h : s.step ops mtdevMatch event = some s') : s'.Sorted :=
  Holds.step injective (fun _ => marked_rests) (fun _ => unmarked_rests) (fun _ _ _ _ _ => trackAngle_marked) (fun _ _ _ _ _ _ => ⟨rfl, rfl⟩) h sorted

theorem reads_iff {s : System D} (sorted : s.Sorted) (event : Event D) : Reads s event ↔ Alike s event := by
  cases event with
  | begin | track => exact Iff.rfl
  | finish i =>
    have each : ∀ t p, s.trackers[i]? = some t → t.progress = some p → (ids p.old).Nodup ∧ ∀ o ∈ p.old, Marked o := by
      intro t p found now
      have ok := sorted.ok.tracker i t found
      refine ⟨?_, ((sorted.tracker i t found).progress p now).1⟩
      rw [(ok.progress p now).old, ids_older]
      exact ok.nodup
    constructor
    · intro reads t found p now empty detected ended b member turns o inside same
      obtain ⟨nodup, marked⟩ := each t p found now
      have known : p.old.find? (·.blobId == b.blobId) = some o := same ▸ find?_of_mem nodup inside
      exact (marked o inside).1.mp (reads t found p now empty detected ended b member turns o known).1
    · intro alike t found p now empty detected ended b member turns o known
      obtain ⟨_, marked⟩ := each t p found now
      have inside := List.mem_of_find?_eq_some known
      have same : o.blobId = b.blobId := by simpa using List.find?_some known
      have turned := alike t found p now empty detected ended b member turns o inside same
      exact ⟨(marked o inside).1.mpr turned, (marked o inside).2.mpr turned⟩

/-- `trackAngles` reads what exists in exactly those runs in which no blob whose angle is tracked takes the id of an
old blob of another kind. -/
theorem reads_iff_alike (injective : mtdevMatch.Injective) (kinds : List Kind) (events : List (Event D)) :
    Machine.Allowed (System.step ops mtdevMatch) Reads (.initial kinds) events ↔
      Machine.Allowed (System.step ops mtdevMatch) Alike (.initial kinds) events :=
  Machine.allowed_congr (I := System.Sorted) (fun _ _ _ _ now sorted => sorted.step injective now) (fun _ event sorted => reads_iff sorted event)
    (System.initial_holds _ _ kinds) events

/-! ### Tags that go together -/

/-- `trackBlobs` matches no blob whose angle is tracked with one of another kind, if the tags of all of them are `Q`. The
greedy tracker compares kinds, the other one does not. -/
def Together (Q : Str → Prop) : Kind → Prop
  | .greedy => ∀ tags, Q tags → (isFid tags = some true ↔ inTags "volatileangle" tags = some true)
  | .munkres => ∀ tags tags', Q tags → Q tags' → inTags "volatileangle" tags = some true → inTags "volatileangle" tags' = some true

theorem Together.matched {Q : Str → Prop} {kind : Kind} (together : Together Q kind) {b o : Blob D} (new : Q b.implements) (old : Q o.implements)
    (fids : kind = .greedy → SameFid b o) (turns : Turns b) : Turns o := by
  cases kind with
  | greedy => exact (together _ old).mp (fids rfl ((together _ new).mpr turns)).1
  | munkres => exact together _ _ new old turns

theorem Progress.Ok.detected_sameFid {counter : Int} {oldBlobs : List (Blob D)} {p : Progress D} (ok : p.Ok .greedy counter oldBlobs)
    {detected : List (Blob D)} (seen : p.detected .greedy = some detected) {b o : Blob D} (member : b ∈ detected) (inside : o ∈ p.old)
    (same : o.blobId = b.blobId) : SameFid b o := by
  obtain ⟨c, before, now⟩ := Lists.forall₂_mem_right (Lists.forall₂_of_mapM seen) member
  rw [(expire_spec now).1] at same ⊢
  exact ok.fids rfl c before o inside same

theorem tags_rests (Q : Str → Prop) : Rests fun b : Blob D => Q b.implements := by
  rintro b c ⟨same, _, _⟩ tags
  show Q c.implements
  rw [same]
  exact tags

/-- What a run keeps when the tags of every frame for tracker `i` are `Q i`. -/
structure System.Sighted (kinds : List Kind) (Q : Nat → Str → Prop) (s : System D) : Prop where
  sorted : s.Sorted
  tags : s.Holds (fun i b => Q i b.implements) fun i b => Q i b.implements
  kinds : ∀ (i : Nat) (t : State D), s.trackers[i]? = some t → kinds[i]? = some t.kind

theorem State.step_kind {t t' : State D} {counter counter' : Int} {event : Event D}
    (h : t.step ops mtdevMatch counter event = some (t', counter')) : t'.kind = t.kind := by
  cases State.step_moves h <;> rfl

theorem System.Sighted.step (injective : mtdevMatch.Injective) {kinds : List Kind} {Q : Nat → Str → Prop} {s s' : System D} {event : Event D}
    (frames : ∀ i settings frame, event = .begin i settings frame → ∀ d ∈ frame, Q i d.clone.implements)
    (h : s.step ops mtdevMatch event = some s') (sighted : s.Sighted kinds Q) : s'.Sighted kinds Q where
  sorted := sighted.sorted.step injective h
  tags := by
    refine sighted.tags.step injective (fun i => tags_rests (Q i)) (fun i => tags_rests (Q i)) (fun i settings old b b' now tags => ?_) frames h
    rw [trackAngle_angled now]
    exact tags
  kinds i u here := by
    rcases System.step_cases h with rfl | ⟨t, t', counter, found, now, rfl⟩
    · exact sighted.kinds i u here
    · obtain ⟨inside, _⟩ := List.getElem?_eq_some_iff.mp found
      by_cases same : event.tracker = i
      · subst same
        rw [List.getElem?_set_self inside] at here
        cases here
        rw [State.step_kind now]
        exact sighted.kinds _ t found
      · rw [List.getElem?_set_ne same] at here
        exact sighted.kinds i u here

theorem System.Sighted.alike {kinds : List Kind} {Q : Nat → Str → Prop} (together : ∀ i kind, kinds[i]? = some kind → Together (Q i) kind)
    {s : System D} (sighted : s.Sighted kinds Q) (event : Event D) : Alike s event := by
  cases event with
  | begin | track => trivial
  | finish i =>
    intro t found p now empty detected seen b member turns o inside same
    obtain ⟨old, new⟩ := (sighted.tags.tracker i t found).progress p now
    have tags := Progress.detected_new (tags_rests (Q i)) seen (fun b inside => new b (List.mem_append_left _ inside)) b member
    refine (together i t.kind (sighted.kinds i t found)).matched tags (old o inside) (fun greedy => ?_) turns
    have ok := (sighted.sorted.ok.tracker i t found).progress p now
    rw [greedy] at ok seen
    exact ok.detected_sameFid seen member inside same

/-- When the tags that each tracker sees go together, `trackAngles` reads what exists. -/
theorem reads_together (injective : mtdevMatch.Injective) {kinds : List Kind} {Q : Nat → Str → Prop}
    (together : ∀ i kind, kinds[i]? = some kind → Together (Q i) kind) {events : List (Event D)}
    (frames : ∀ i settings frame, .begin i settings frame ∈ events → ∀ d ∈ frame, Q i d.clone.implements) :
    Machine.Allowed (System.step ops mtdevMatch) Reads (.initial kinds) events := by
  refine Machine.allowed_of_invariant (I := System.Sighted kinds Q) (fun s event member s' now sighted => ?_) (fun s event _ sighted => ?_) ?_
  · refine sighted.step injective ?_ now
    rintro i settings frame rfl
    exact frames i settings frame member
  · exact (reads_iff sighted.sorted event).mpr (sighted.alike together event)
  · refine ⟨System.initial_holds _ _ kinds, System.initial_holds _ _ kinds, fun i t found => ?_⟩
    rw [System.initial, List.getElem?_map] at found
    obtain ⟨kind, known, rfl⟩ := Option.map_eq_some_iff.mp found
    exact known

end Movid.Tracker

/-! ### The blobs of the finders -/

namespace Movid.Blobs

open Preset (ModuleType Platform Value)
open Tracker (Detection System)
open Pipeline (wholeDoubles)

variable {P : Platform} (ops : Doubles P.Double)

/-- What the trackers read of a blob, after they have cloned it. -/
def detection (found : Container P) : Option (Detection P.Double) := do
  let blob := found.clone
  let implements ← blob.implements
  let x ← blob.double ops "x"
  let y ← blob.double ops "y"
  some { implements, x, y, angle := blob.double ops "angle", fiducialId := (blob.integer "fiducial_id").map (·.toInt) }

def Sight.frame (sight : Sight P) : List (Detection P.Double) := (sight.blobs ops).filterMap (detection ops)

theorem detection_isSome {c : Container P} (tagged : c.hasProperty "implements" = true) (x : c.hasProperty "x" = true) (y : c.hasProperty "y" = true) :
    (detection ops c).isSome := by
  have coordinate : ∀ name, c.hasProperty name = true → ∃ v, c.clone.double ops name = some v := by
    intro name has
    obtain ⟨value, found⟩ := Option.isSome_iff_exists.mp has
    refine ⟨P.atof value.asString, ?_⟩
    rw [Container.double, Container.find_clone, found]
    rfl
  obtain ⟨vx, readX⟩ := coordinate "x" x
  obtain ⟨vy, readY⟩ := coordinate "y" y
  obtain ⟨implements, read⟩ : ∃ implements, c.clone.implements = some implements := by
    rw [Container.implements_clone]
    exact Option.isSome_iff_exists.mp (Container.implements_isSome c ▸ tagged)
  simp [detection, read, readX, readY]

/-- The values that a finder gives to `implements`. -/
def written : ModuleType → List String
  | .blobFinder => ["pos,size"]
  | .fiducialFinder => ["fiducial,pos,tracked"]
  | .fingerTipFinder => ["handcenter,pos,node", "fingertip,pos,node"]
  | .huObjectFinder => ["markerlessobject,pos,volatileangle", "markerlessobject,pos,volatileangle,volatile"]
  | _ => []

/-- The blob has one of these tags and a place. -/
structure Placed (finder : ModuleType) (c : Container P) : Prop where
  tags : ∃ tags ∈ written finder, c.implements = some tags.toList
  x : c.hasProperty "x" = true
  y : c.hasProperty "y" = true

theorem placed_container {finder : ModuleType} {properties : List (String × Value P)} (tags : String) (member : tags ∈ written finder)
    (found : (properties.reverse.find? (·.1 = "implements")).map (·.2) = some (text tags))
    (all : ∀ name ∈ ["x", "y"], name ∈ properties.map (·.1)) : Placed finder (container properties) where
  tags := by
    refine ⟨tags, member, ?_⟩
    rw [Container.implements, find_container, found]
    rfl
  x := by
    rw [hasProperty_container, decide_eq_true_eq]
    exact all "x" (by simp)
  y := by
    rw [hasProperty_container, decide_eq_true_eq]
    exact all "y" (by simp)

theorem Sight.blobs_placed (sight : Sight P) {c : Container P} (member : c ∈ sight.blobs ops) : Placed sight.finder c := by
  cases sight with
  | contours =>
    obtain ⟨rect, -, rfl⟩ := List.mem_map.mp member
    exact placed_container "pos,size" (by simp [written, finder]) rfl (by simp)
  | fiducials =>
    obtain ⟨fdx, -, rfl⟩ := List.mem_map.mp member
    exact placed_container "fiducial,pos,tracked" (by simp [written, finder]) rfl (by simp)
  | hand =>
    simp only [Sight.blobs, fingerTipFinder] at member
    split at member
    · rcases List.mem_cons.mp member with rfl | tip
      · exact placed_container "handcenter,pos,node" (by simp [written, finder]) rfl (by simp)
      · obtain ⟨p, -, rfl⟩ := List.mem_map.mp tip
        exact placed_container "fingertip,pos,node" (by simp [written, finder]) rfl (by simp)
    · cases member
  | shapes =>
    obtain ⟨shape, -, rfl⟩ := List.mem_map.mp member
    refine placed_container ("markerlessobject,pos,volatileangle" ++ if shape.possible then ",volatile" else "") ?_ rfl (by simp)
    show _ ∈ written .huObjectFinder
    cases shape.possible <;> decide

/-- The finders leave out nothing that is read. -/
theorem Sight.frame_length (sight : Sight P) : (sight.frame ops).length = (sight.blobs ops).length := by
  rw [Sight.frame, List.length_filterMap_eq_countP, List.countP_eq_length]
  intro c member
  obtain ⟨⟨tags, _, read⟩, x, y⟩ := sight.blobs_placed ops member
  exact detection_isSome ops (by rw [← Container.implements_isSome, read]; rfl) x y

theorem Sight.frame_tags (sight : Sight P) {d : Detection P.Double} (member : d ∈ sight.frame ops) :
    ∃ tags ∈ written sight.finder, d.clone.implements = tags.toList ++ ",tracked".toList := by
  obtain ⟨c, inside, now⟩ := List.mem_filterMap.mp member
  obtain ⟨⟨tags, listed, read⟩, _, _⟩ := sight.blobs_placed ops inside
  obtain ⟨implements, found, rest⟩ := Option.bind_eq_some_iff.mp now
  obtain ⟨x, _, rest⟩ := Option.bind_eq_some_iff.mp rest
  obtain ⟨y, _, same⟩ := Option.bind_eq_some_iff.mp rest
  cases same
  rw [Container.implements_clone, read] at found
  cases found
  exact ⟨tags, listed, rfl⟩

theorem written_turns {finder : ModuleType} {tags : String} (member : tags ∈ written finder) :
    Tracker.inTags "volatileangle" (tags.toList ++ ",tracked".toList) = some (decide (finder = .huObjectFinder)) := by
  unfold written at member
  split at member
  case h_5 => cases member
  all_goals
    revert tags
    decide

theorem written_isFid {finder : ModuleType} {tags : String} (member : tags ∈ written finder) :
    Tracker.isFid (tags.toList ++ ",tracked".toList) = some (decide (finder = .fiducialFinder ∨ finder = .huObjectFinder)) := by
  unfold written at member
  split at member
  case h_5 => cases member
  all_goals
    revert tags
    decide

/-- The finders that a tracker can be connected to in turn. -/
def Interchangeable (finders : List ModuleType) : Tracker.Kind → Prop
  | .greedy => .fiducialFinder ∉ finders
  | .munkres => .huObjectFinder ∈ finders → ∀ finder ∈ finders, finder = .huObjectFinder

theorem Interchangeable.together {finders : List ModuleType} {kind : Tracker.Kind} (interchangeable : Interchangeable finders kind) :
    Tracker.Together (fun tags => ∃ finder ∈ finders, ∃ s ∈ written finder, tags = s.toList ++ ",tracked".toList) kind := by
  cases kind with
  | greedy =>
    rintro _ ⟨finder, connected, s, member, rfl⟩
    rw [written_isFid member, written_turns member]
    have other : finder ≠ .fiducialFinder := fun same => interchangeable (same ▸ connected)
    simp [other]
  | munkres =>
    rintro _ _ ⟨finder, connected, s, member, rfl⟩ ⟨finder', connected', s', member', rfl⟩ turns
    rw [written_turns member, Option.some.injEq, decide_eq_true_eq] at turns
    rw [written_turns member', interchangeable (turns ▸ connected) finder' connected']
    rfl

/-- A tracker whose input moves between finders that are interchangeable for it. -/
theorem reads_interchangeable {mtdevMatch : Tracker.Matching} (injective : mtdevMatch.Injective) {kinds : List Tracker.Kind}
    {finders : Nat → List ModuleType} (interchangeable : ∀ i kind, kinds[i]? = some kind → Interchangeable (finders i) kind)
    {events : List (Tracker.Event P.Double)}
    (frames : ∀ i settings frame, .begin i settings frame ∈ events → ∃ sight : Sight P, sight.finder ∈ finders i ∧ frame = sight.frame ops) :
    Machine.Allowed (System.step ops mtdevMatch) Tracker.Reads (.initial kinds) events := by
  refine Tracker.reads_together injective (fun i kind known => (interchangeable i kind known).together) ?_
  intro i settings frame member d inside
  obtain ⟨sight, connected, rfl⟩ := frames i settings frame member
  obtain ⟨s, listed, same⟩ := sight.frame_tags ops inside
  exact ⟨sight.finder, connected, s, listed, same⟩

/-- A tracker sees a fiducial, is connected to HuObjectFinder, and sees a shape in the same place. -/
def reconnected (sights : List (Sight Platform.whole)) : List (Tracker.Event Platform.whole.Double) :=
  sights.flatMap fun sight => [.begin 0 .default (sight.frame wholeDoubles), .track 0, .finish 0]

def fiducialSight : Sight Platform.whole := .fiducials ⟨1, 1⟩ [⟨5, (1 : Int), (1 : Int), (0 : Int), (1 : Int), (2 : Int)⟩]

def shapeSight (angle : Int) : Sight Platform.whole := .shapes ⟨1, 1⟩ 100 [⟨(1 : Int), (1 : Int), angle, -1, true⟩]

/-- The old blob has no `fallen_over`. -/
theorem fiducial_lacks_angle :
    ¬ Machine.Allowed (System.step wholeDoubles Tracker.matchNothing) Tracker.Reads (.initial [.greedy]) (reconnected [fiducialSight, shapeSight 1]) ∧
    Machine.attempt (System.step wholeDoubles Tracker.matchNothing) (.initial [.greedy]) (reconnected [fiducialSight, shapeSight 1]) = none := by
  decide +kernel

theorem reads_iff_alike_shapes :
    Machine.Allowed (System.step wholeDoubles Tracker.matchNothing) Tracker.Reads (.initial [.greedy]) (reconnected [shapeSight 1, shapeSight 1]) :=
  (Tracker.reads_iff_alike Tracker.matchNothing_injective [.greedy] _).mpr (by decide +kernel)

end Movid.Blobs
