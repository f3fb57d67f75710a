import Movid.Blob.Contract
import Movid.Lib.Lists
import Movid.Tracker.Update

/-!
# The trackers and Calibration on containers

`update` of the trackers and `transformPoints` of Calibration, with every property they read
and write. `Tracker` sees the blobs as the values that its accessors give; here a blob is
the container itself, and reading a property that it does not have ends the program.
-/

namespace Movid

open Preset (Platform Value)
open Tracker (Settings Matching Kind)

variable {P : Platform}

/-- `convertToDouble` has no case for point lists. -/
def Preset.Value.asDouble (ops : Doubles P.Double) : Value P → Option P.Double
  | bool b => some (ops.ofInt (if b then 1 else 0))
  | string s => some (P.atof s)
  | integer n => some (ops.ofInt n.toInt)
  | double x => some x
  | pointList _ => none

def Container.double (ops : Doubles P.Double) (c : Container P) (name : String) : Option P.Double :=
  (c.find name).bind (·.asDouble ops)

def Container.setInteger (c : Container P) (name : String) (n : Int) : Option (Container P) :=
  c.set name (.integer (Int32.ofInt n))

namespace Blobs

variable (ops : Doubles P.Double)

/-- The first loop of `update`. -/
def older (blob : Container P) : Option (Container P) := do
  let age ← blob.integer "age"
  blob.setInteger "age" (age.toInt + 1)

/-- The body of the loop that copies the blobs of the frame. -/
def copy (found : Container P) : Option (Container P) := do
  let blob := found.clone
  let implements ← blob.implements
  let blob ← blob.set "implements" (.string (implements ++ ",tracked".toList))
  some ((blob.put "blob_id" (.integer 0)).put "age" (.integer 0))

/-! ### `moGreedyBlobTrackerModule::trackBlobs` -/

structure Closest (P : Platform) where
  blob : Option (Container P)
  minDistance : P.Double

/-- Whether the rules on fiducials let the old blob be the new one. -/
def compatible (blob old : Container P) (newIsFid newIsVolatile oldIsFid : Bool) : Option Bool :=
  if oldIsFid && newIsFid && !newIsVolatile then do
    let fid ← blob.integer "fiducial_id"
    let oldFid ← old.integer "fiducial_id"
    some (fid == oldFid)
  else some (oldIsFid || !newIsFid)

def consider (reused : List Int32) (blob : Container P) (newX newY : P.Double) (newIsFid newIsVolatile : Bool)
    (closest : Closest P) (old : Container P) : Option (Closest P) := do
  let oldId ← old.integer "blob_id"
  if oldId ∈ reused then some closest
  else
    let oldIsFid ← old.implements.bind Tracker.isFid
    let fits ← compatible blob old newIsFid newIsVolatile oldIsFid
    if fits then
      let oldX ← old.double ops "x"
      let oldY ← old.double ops "y"
      let dx := ops.sub oldX newX
      let dy := ops.sub oldY newY
      let distance := ops.sqrt (ops.add (ops.mul dx dx) (ops.mul dy dy))
      some (if ops.lt distance closest.minDistance then { blob := some old, minDistance := distance } else closest)
    else some closest

/-- A volatile blob takes over the fiducial id of the blob it is matched with. -/
def copyFid (blob closest : Container P) (newIsFid newIsVolatile : Bool) : Option (Container P) := do
  let oldIsFid ← closest.implements.bind Tracker.isFid
  if oldIsFid && newIsFid && newIsVolatile then
    let oldFid ← closest.integer "fiducial_id"
    blob.set "fiducial_id" (.integer oldFid)
  else some blob

/-- The loop over the new blobs: those that have an id, the ids that were used again, and the counter. -/
structure Tracked (P : Platform) where
  done : List (Container P)
  reused : List Int32
  counter : Int

def greedyTrack (settings : Settings P.Double) (old : List (Container P)) (t : Tracked P) (blob : Container P) :
    Option (Tracked P) := do
  let newX ← blob.double ops "x"
  let newY ← blob.double ops "y"
  let implements ← blob.implements
  let newIsFid ← Tracker.isFid implements
  let newIsVolatile ← Tracker.isVolatile implements
  let closest ← old.foldlM (consider ops t.reused blob newX newY newIsFid newIsVolatile) ⟨none, settings.maxDistance⟩
  match closest.blob with
  | some closest =>
    let oldId ← closest.integer "blob_id"
    let blob ← blob.set "blob_id" (.integer oldId)
    let blob ← copyFid blob closest newIsFid newIsVolatile
    some { t with done := t.done ++ [blob], reused := t.reused ++ [oldId] }
  | none =>
    let blob ← blob.setInteger "blob_id" (t.counter + 1)
    some { t with done := t.done ++ [blob], counter := t.counter + 1 }

/-- The last loop: volatile blobs without a fiducial id expire unless they are retained. -/
def expire (settings : Settings P.Double) (blob : Container P) : Option (Container P) := do
  let newIsVolatile ← blob.implements.bind Tracker.isVolatile
  if newIsVolatile then
    let fid ← blob.integer "fiducial_id"
    if fid = -1 then blob.setInteger "age" (settings.maxAge + 1) else some blob
  else some blob

def greedyTrackBlobs (settings : Settings P.Double) (counter : Int) (old new : List (Container P)) :
    Option (List (Container P) × Int) := do
  let t ← new.foldlM (greedyTrack ops settings old) ⟨[], [], counter⟩
  let new ← t.done.mapM (expire settings)
  some (new, t.counter)

/-! ### `moMunkresBlobTrackerModule::trackBlobs` -/

def position (blob : Container P) : Option (Int × Int) := do
  let x ← blob.double ops "x"
  let y ← blob.double ops "y"
  some (Tracker.normalize ops x, Tracker.normalize ops y)

/-- The body of the last loop, for the entry `j` of `n2s`. -/
def munkresTrack (sid : List Int32) (t : Tracked P) (next : Container P × Int) : Option (Tracked P) := do
  let id ← (if 0 ≤ next.2 then (sid[next.2.toNat]?).map (·.toInt) else some (-10))
  let counter := if id = -10 then t.counter + 1 else t.counter
  let blob ← next.1.setInteger "blob_id" (if id = -10 then counter else id)
  some { t with done := t.done ++ [blob], counter }

def munkresTrackBlobs (mtdevMatch : Matching) (counter : Int) (old new : List (Container P)) :
    Option (List (Container P) × Int) :=
  if old.length < Tracker.dimFinger ∧ new.length < Tracker.dimFinger then do
    let sid ← old.mapM (·.integer "blob_id")
    let s ← old.mapM (position ops)
    let n ← new.mapM (position ops)
    let distances := s.flatMap fun s => n.map fun n => Tracker.dist2 (n.1 - s.1) (n.2 - s.2)
    let n2s := mtdevMatch distances new.length old.length
    if new.length ≤ n2s.length then
      let t ← (new.zip n2s).foldlM (munkresTrack sid) ⟨[], [], counter⟩
      some (t.done, t.counter)
    else none
  else none

/-! ### The rest of `update` -/

/-- The loops that look for the blob with an id stop where they find it. -/
def indexOf (id : Int32) : List (Container P) → Option (Option Nat)
  | [] => some none
  | blob :: rest => do
    let other ← blob.integer "blob_id"
    if other = id then some (some 0) else (indexOf id rest).map (·.map (· + 1))

/-- The body of the loop of `trackAngles`. -/
def trackAngle (settings : Settings P.Double) (old : List (Container P)) (blob : Container P) : Option (Container P) := do
  let volatileAngle ← blob.implements.bind (Container.inTags "volatileangle")
  if volatileAngle then
    let rad ← blob.double ops "angle"
    let angle := ops.toInt (Tracker.radToDeg ops rad)
    let id ← blob.integer "blob_id"
    match (← indexOf id old).bind (old[·]?) with
    | none => some ((blob.put "last_angle" (.integer (Int32.ofInt angle))).put "fallen_over" (.integer 0))
    | some o =>
      let fallenOver ← o.integer "fallen_over"
      let lastAngle ← o.integer "last_angle"
      let fallenOver :=
        if ((lastAngle.toInt - angle).natAbs : Int) > settings.maxRotationSpeed then
          if lastAngle.toInt > angle then fallenOver.toInt + 1 else fallenOver.toInt - 1
        else fallenOver.toInt
      let trackedAngle := ((angle + 90 * fallenOver).tmod 360 + 360).tmod 360
      ((blob.put "fallen_over" (.integer (Int32.ofInt fallenOver))).put "last_angle" (.integer (Int32.ofInt angle))).set "angle"
        (.double (Tracker.degToRad ops (ops.ofInt trackedAngle)))
  else some blob

/-- The body of the loop over the old blobs: a match passes its age on, a lost blob stays for as long
as the window allows. -/
def retain (settings : Settings P.Double) (new : List (Container P)) (old : Container P) : Option (List (Container P)) := do
  let oid ← old.integer "blob_id"
  let found ← indexOf oid new
  let age ← old.integer "age"
  match found with
  | some i =>
    let blob ← new[i]?
    let blob ← blob.setInteger "age" (settings.renew age.toInt)
    some (new.set i blob)
  | none => some (if settings.inWindow age.toInt then new ++ [old] else new)

structure Update (P : Platform) where
  counter : Int
  list : List (Container P)
  adolescent : List (Container P)

/-- `moAbstractBlobTrackerModule::update`. -/
def update (mtdevMatch : Matching) (kind : Kind) (settings : Settings P.Double) (counter : Int)
    (oldBlobs blobs : List (Container P)) : Option (Update P) := do
  let old ← oldBlobs.mapM older
  let new ← blobs.mapM copy
  let (new, counter) ← (match kind with
    | .greedy => greedyTrackBlobs ops settings counter old new
    | .munkres => munkresTrackBlobs ops mtdevMatch counter old new)
  let new ← new.mapM (trackAngle ops settings old)
  let list ← old.foldlM (retain settings) new
  let ages ← list.mapM (·.integer "age")
  let adolescent := ((list.zip ages).filter fun p => settings.inWindow p.2.toInt).map (·.1)
  some { counter, list, adolescent }

/-! ### `moCalibrationModule::transformPoints` -/

/-- A vertex of the subdivision, on the surface and on the screen. -/
structure Vertex (D : Type) where
  x : D
  y : D
  screenX : D
  screenY : D

/-- What `cvSubdiv2DLocate` finds: a vertex, or the corners of a triangle. -/
inductive Location (D : Type) where
  | vertex (v : Vertex D)
  | inside (a b c : Vertex D)

/-- The point in barycentric coordinates, on the screen. -/
def interpolate {D : Type} (ops : Doubles D) (a b c : Vertex D) (x y : D) : D × D :=
  let entireArea := ops.sub (ops.mul (ops.sub a.x b.x) (ops.sub a.y c.y)) (ops.mul (ops.sub a.y b.y) (ops.sub a.x c.x))
  let areaA := ops.sub (ops.mul (ops.sub x b.x) (ops.sub y c.y)) (ops.mul (ops.sub y b.y) (ops.sub x c.x))
  let areaB := ops.sub (ops.mul (ops.sub a.x x) (ops.sub a.y c.y)) (ops.mul (ops.sub a.y y) (ops.sub a.x c.x))
  let alpha := ops.div areaA entireArea
  let beta := ops.div areaB entireArea
  let gamma := ops.sub (ops.sub (ops.ofInt 1) alpha) beta
  (ops.add (ops.add (ops.mul alpha a.screenX) (ops.mul beta b.screenX)) (ops.mul gamma c.screenX),
    ops.add (ops.add (ops.mul alpha a.screenY) (ops.mul beta b.screenY)) (ops.mul gamma c.screenY))

def onVertex (blob : Container P) (v : Vertex P.Double) : Option (Container P) := do
  let id ← blob.integer "blob_id"
  let implements ← blob.implements
  some (container
    [("type", text "trackedblob"), ("blob_id", .integer id), ("implements", .string implements), ("x", .double v.screenX),
      ("y", .double v.screenY)])

/-- The body of the loop. -/
def transformPoint (locate : P.Double → P.Double → Location P.Double) (blob : Container P) : Option (Container P) := do
  let x ← blob.double ops "x"
  let y ← blob.double ops "y"
  match locate x y with
  | .vertex v => onVertex blob v
  | .inside a b c =>
    let transformed := interpolate ops a b c x y
    some (((blob.clone.put "type" (text "trackedblob")).put "x" (.double transformed.1)).put "y" (.double transformed.2))

/-! ### What becomes of the promises -/

section Keeps

variable {ops} {settings : Settings P.Double} {old new blobs list : List (Container P)} {b c : Container P}

theorem setInteger_extends {name : String} {n : Int} (done : b.setInteger name n = some c) (other : name ≠ "implements") :
    b.Extends c := Container.extends_set done other

theorem older_extends (done : older b = some c) : b.Extends c := by
  obtain ⟨age, -, done⟩ := Option.bind_eq_some_iff.mp done
  exact setInteger_extends done (by decide)

theorem copyFid_extends {closest : Container P} {newIsFid newIsVolatile : Bool}
    (done : copyFid b closest newIsFid newIsVolatile = some c) : b.Extends c := by
  obtain ⟨oldIsFid, -, done⟩ := Option.bind_eq_some_iff.mp done
  split at done
  · obtain ⟨oldFid, -, done⟩ := Option.bind_eq_some_iff.mp done
    exact Container.extends_set done (by decide)
  · cases done
    exact Container.Extends.refl b

theorem expire_extends (done : expire settings b = some c) : b.Extends c := by
  obtain ⟨newIsVolatile, -, done⟩ := Option.bind_eq_some_iff.mp done
  split at done
  · obtain ⟨fid, -, done⟩ := Option.bind_eq_some_iff.mp done
    split at done
    · exact setInteger_extends done (by decide)
    · cases done
      exact Container.Extends.refl b
  · cases done
    exact Container.Extends.refl b

theorem trackAngle_extends (done : trackAngle ops settings old b = some c) : b.Extends c := by
  obtain ⟨volatileAngle, -, done⟩ := Option.bind_eq_some_iff.mp done
  split at done
  · obtain ⟨rad, -, done⟩ := Option.bind_eq_some_iff.mp done
    obtain ⟨id, -, done⟩ := Option.bind_eq_some_iff.mp done
    obtain ⟨found, -, done⟩ := Option.bind_eq_some_iff.mp done
    split at done
    · cases done
      exact (Container.extends_put b _ (by decide)).trans (Container.extends_put _ _ (by decide))
    · obtain ⟨fallenOver, -, done⟩ := Option.bind_eq_some_iff.mp done
      obtain ⟨lastAngle, -, done⟩ := Option.bind_eq_some_iff.mp done
      exact ((Container.extends_put b _ (by decide)).trans (Container.extends_put _ _ (by decide))).trans
        (Container.extends_set done (by decide))
  · cases done
    exact Container.Extends.refl b

theorem tags_copy (done : copy b = some c) : c.tags = b.tags ++ ["tracked".toList] := by
  obtain ⟨implements, read, done⟩ := Option.bind_eq_some_iff.mp done
  obtain ⟨tagged, set, done⟩ := Option.bind_eq_some_iff.mp done
  cases done
  rw [Container.implements_clone] at read
  -- after `clone` the property is a string, so `set` does not convert the text
  obtain ⟨value, found, -⟩ := Option.map_eq_some_iff.mp read
  rw [Container.set_string (by rw [Container.find_clone, found]; rfl)] at set
  cases set
  have again : (b.clone.put "implements" (.string (implements ++ ",tracked".toList))).implements =
      some (implements ++ ',' :: "tracked".toList) := by
    unfold Container.implements
    rw [Container.find_put, if_pos rfl]
    rfl
  have last : Utils.fields "tracked".toList [','] = ["tracked".toList] := Utils.fields_word (by decide) (by decide)
  rw [Container.tags_put _ _ (by decide), Container.tags_put _ _ (by decide), Container.tags_eq again, Container.tags_eq read,
    Utils.fields_append (by decide), last]

theorem hasProperty_copy (done : copy b = some c) (name : String) (has : name = "blob_id" ∨ b.hasProperty name = true) :
    c.hasProperty name = true := by
  obtain ⟨implements, -, done⟩ := Option.bind_eq_some_iff.mp done
  obtain ⟨tagged, set, done⟩ := Option.bind_eq_some_iff.mp done
  cases done
  obtain ⟨value, -, rfl⟩ := Option.map_eq_some_iff.mp set
  simp only [Container.hasProperty_put, Container.hasProperty_clone, Bool.or_eq_true, decide_eq_true_eq]
  rcases has with id | old
  · exact Or.inr (Or.inl id)
  · exact Or.inr (Or.inr (Or.inr old))

theorem copy_honours (done : copy b = some c) (honours : b.Honours) : c.Honours := by
  intro promise listed tag name promised
  rw [tags_copy done, List.mem_append, List.mem_singleton] at tag
  apply hasProperty_copy done name
  rcases tag with before | tracked
  · exact Or.inr (honours promise listed before name promised)
  · have promises : ∀ promise ∈ Container.promises, promise.1.toList = "tracked".toList → promise.2 = ["blob_id"] := by decide
    rw [promises promise listed tracked] at promised
    exact Or.inl (List.mem_singleton.mp promised)

def Honest (blobs : List (Container P)) : Prop := ∀ c ∈ blobs, c.Honours

theorem Honest.mapM {f : Container P → Option (Container P)} (honest : Honest blobs)
    (keeps : ∀ b c, f b = some c → b.Honours → c.Honours) (done : blobs.mapM f = some list) : Honest list := by
  intro c member
  obtain ⟨b, inside, kept⟩ := Lists.forall₂_mem_right (Lists.forall₂_of_mapM done) member
  exact keeps b c kept (honest b inside)

theorem Honest.concat (honest : Honest blobs) (honours : c.Honours) : Honest (blobs ++ [c]) := by
  intro d member
  rcases List.mem_append.mp member with before | last
  · exact honest d before
  · rw [List.mem_singleton.mp last]
    exact honours

theorem greedyTrack_honest {t t' : Tracked P} (done : greedyTrack ops settings old t b = some t') (honours : b.Honours)
    (honest : Honest t.done) : Honest t'.done := by
  obtain ⟨newX, -, done⟩ := Option.bind_eq_some_iff.mp done
  obtain ⟨newY, -, done⟩ := Option.bind_eq_some_iff.mp done
  obtain ⟨implements, -, done⟩ := Option.bind_eq_some_iff.mp done
  obtain ⟨newIsFid, -, done⟩ := Option.bind_eq_some_iff.mp done
  obtain ⟨newIsVolatile, -, done⟩ := Option.bind_eq_some_iff.mp done
  obtain ⟨closest, -, done⟩ := Option.bind_eq_some_iff.mp done
  split at done
  · obtain ⟨oldId, -, done⟩ := Option.bind_eq_some_iff.mp done
    obtain ⟨named, set, done⟩ := Option.bind_eq_some_iff.mp done
    obtain ⟨fiducial, copied, done⟩ := Option.bind_eq_some_iff.mp done
    cases done
    exact honest.concat (((Container.extends_set set (by decide)).trans (copyFid_extends copied)).honours honours)
  · obtain ⟨named, set, done⟩ := Option.bind_eq_some_iff.mp done
    cases done
    exact honest.concat ((setInteger_extends set (by decide)).honours honours)

theorem munkresTrack_honest {sid : List Int32} {t t' : Tracked P} {j : Int} (done : munkresTrack sid t (b, j) = some t')
    (honours : b.Honours) (honest : Honest t.done) : Honest t'.done := by
  obtain ⟨id, -, done⟩ := Option.bind_eq_some_iff.mp done
  obtain ⟨named, set, done⟩ := Option.bind_eq_some_iff.mp done
  cases done
  exact honest.concat ((setInteger_extends set (by decide)).honours honours)

theorem greedyTrackBlobs_honest {counter counter' : Int}
    (done : greedyTrackBlobs ops settings counter old new = some (list, counter')) (honest : Honest new) : Honest list := by
  obtain ⟨t, tracked, done⟩ := Option.bind_eq_some_iff.mp done
  obtain ⟨expired, kept, done⟩ := Option.bind_eq_some_iff.mp done
  cases done
  have all : Honest t.done := Lists.foldlM_invariant (I := fun t => Honest t.done)
    (fun _ b member _ step honest' => greedyTrack_honest step (honest b member) honest') tracked fun _ none => by cases none
  exact all.mapM (fun _ _ step => (expire_extends step).honours) kept

theorem munkresTrackBlobs_honest {mtdevMatch : Matching} {counter counter' : Int}
    (done : munkresTrackBlobs ops mtdevMatch counter old new = some (list, counter')) (honest : Honest new) : Honest list := by
  unfold munkresTrackBlobs at done
  split at done
  · obtain ⟨sid, -, done⟩ := Option.bind_eq_some_iff.mp done
    obtain ⟨s, -, done⟩ := Option.bind_eq_some_iff.mp done
    obtain ⟨n, -, done⟩ := Option.bind_eq_some_iff.mp done
    dsimp only at done
    split at done
    · obtain ⟨t, tracked, done⟩ := Option.bind_eq_some_iff.mp done
      cases done
      exact Lists.foldlM_invariant (I := fun t => Honest t.done)
        (fun _ next member _ step honest' => munkresTrack_honest step (honest next.1 (List.of_mem_zip member).1) honest') tracked
        fun _ none => by cases none
    · cases done
  · cases done

theorem retain_honest (done : retain settings new b = some list) (honours : b.Honours) (honest : Honest new) : Honest list := by
  obtain ⟨oid, -, done⟩ := Option.bind_eq_some_iff.mp done
  obtain ⟨found, -, done⟩ := Option.bind_eq_some_iff.mp done
  obtain ⟨age, -, done⟩ := Option.bind_eq_some_iff.mp done
  split at done
  · obtain ⟨blob, here, done⟩ := Option.bind_eq_some_iff.mp done
    obtain ⟨aged, set, done⟩ := Option.bind_eq_some_iff.mp done
    cases done
    intro c member
    rcases List.mem_or_eq_of_mem_set member with kept | rfl
    · exact honest c kept
    · exact (setInteger_extends set (by decide)).honours (honest blob (List.mem_of_getElem? here))
  · cases done
    split
    · exact honest.concat honours
    · exact honest

/-- A tracker keeps the promises of the blobs it was given, and of those it remembers. -/
theorem update_honest {mtdevMatch : Matching} {kind : Kind} {counter : Int} {u : Update P}
    (done : update ops mtdevMatch kind settings counter old blobs = some u) (before : Honest old) (given : Honest blobs) :
    Honest u.list ∧ Honest u.adolescent := by
  obtain ⟨aged, aging, done⟩ := Option.bind_eq_some_iff.mp done
  obtain ⟨copies, copying, done⟩ := Option.bind_eq_some_iff.mp done
  obtain ⟨⟨tracked, counter'⟩, tracking, done⟩ := Option.bind_eq_some_iff.mp done
  obtain ⟨turned, turning, done⟩ := Option.bind_eq_some_iff.mp done
  obtain ⟨list, retaining, done⟩ := Option.bind_eq_some_iff.mp done
  obtain ⟨ages, -, done⟩ := Option.bind_eq_some_iff.mp done
  cases done
  have agedHonest : Honest aged := before.mapM (fun _ _ step => (older_extends step).honours) aging
  have copiesHonest : Honest copies := given.mapM (fun _ _ step => copy_honours step) copying
  have trackedHonest : Honest tracked := by
    cases kind with
    | greedy => exact greedyTrackBlobs_honest tracking copiesHonest
    | munkres => exact munkresTrackBlobs_honest tracking copiesHonest
  have turnedHonest : Honest turned := trackedHonest.mapM (fun _ _ step => (trackAngle_extends step).honours) turning
  have all : Honest list := Lists.foldlM_invariant (I := Honest)
    (fun _ b member _ step honest => retain_honest step (agedHonest b member) honest) retaining turnedHonest
  refine ⟨all, fun c member => ?_⟩
  obtain ⟨p, inside, rfl⟩ := List.mem_map.mp member
  exact all p.1 (List.of_mem_zip (List.mem_of_mem_filter inside)).1

/-- The container that is made for a vertex has nothing for these tags. -/
def Plain (c : Container P) : Prop := ∀ tag ∈ ["size", "node", "fiducial"], tag.toList ∉ c.tags

instance decidablePlain (c : Container P) : Decidable (Plain c) := List.decidableBAll _ _

theorem onVertex_eq {v : Vertex P.Double} (done : onVertex b v = some c) : c.tags = b.tags ∧
    ∀ name, c.hasProperty name = decide (name ∈ ["type", "blob_id", "implements", "x", "y"]) := by
  obtain ⟨id, -, done⟩ := Option.bind_eq_some_iff.mp done
  obtain ⟨implements, read, done⟩ := Option.bind_eq_some_iff.mp done
  cases done
  refine ⟨?_, fun name => ?_⟩
  · have again : (container [("type", text "trackedblob"), ("blob_id", .integer id), ("implements", .string implements),
        ("x", .double v.screenX), ("y", .double v.screenY)]).implements = some implements := by
      unfold Container.implements
      rw [find_container]
      rfl
    rw [Container.tags_eq again, Container.tags_eq read]
  · rw [hasProperty_container]
    rfl

/-- A blob on a vertex goes on with the promises of its tags, but without most properties. -/
theorem onVertex_honours_iff {v : Vertex P.Double} (done : onVertex b v = some c) : c.Honours ↔ Plain b := by
  obtain ⟨tags, has⟩ := onVertex_eq done
  constructor
  · intro honours tag listed tagged
    have broken : ∀ tag ∈ ["size", "node", "fiducial"], ∃ promise ∈ Container.promises, promise.1 = tag ∧
        ∃ name ∈ promise.2, name ∉ ["type", "blob_id", "implements", "x", "y"] := by decide
    obtain ⟨promise, promised, rfl, name, missing, absent⟩ := broken tag listed
    have there := honours promise promised (tags ▸ tagged) name missing
    rw [has] at there
    exact absent (of_decide_eq_true there)
  · intro plain promise promised tag name listed
    have kept : ∀ promise ∈ Container.promises, promise.1 ∈ ["size", "node", "fiducial"] ∨
        ∀ name ∈ promise.2, name ∈ ["type", "blob_id", "implements", "x", "y"] := by decide
    rw [tags] at tag
    rcases kept promise promised with bad | good
    · exact absurd tag (plain _ bad)
    · rw [has]
      exact decide_eq_true (good name listed)

def atVertex (ops : Doubles P.Double) (locate : P.Double → P.Double → Location P.Double) (blob : Container P) : Bool :=
  ((blob.double ops "x").bind fun x => (blob.double ops "y").map (locate x)).any fun
    | .vertex _ => true
    | .inside .. => false

theorem transformPoint_honours_iff {locate : P.Double → P.Double → Location P.Double}
    (done : transformPoint ops locate b = some c) (honours : b.Honours) :
    c.Honours ↔ (atVertex ops locate b = true → Plain b) := by
  obtain ⟨x, readX, done⟩ := Option.bind_eq_some_iff.mp done
  obtain ⟨y, readY, done⟩ := Option.bind_eq_some_iff.mp done
  unfold atVertex
  rw [readX, readY]
  split at done
  · rename_i v found
    simp only [Option.bind_some, Option.map_some, Option.any_some, found, true_imp_iff]
    exact onVertex_honours_iff done
  · rename_i found
    cases done
    simp only [Option.bind_some, Option.map_some, Option.any_some, found, Bool.false_eq_true, false_imp_iff, iff_true]
    exact (((b.extends_clone.trans (Container.extends_put _ _ (by decide))).trans (Container.extends_put _ _ (by decide))).trans
      (Container.extends_put _ _ (by decide))).honours honours

theorem transform_honest_iff {locate : P.Double → P.Double → Location P.Double}
    (done : blobs.mapM (transformPoint ops locate) = some list) (honest : Honest blobs) :
    Honest list ↔ ∀ b ∈ blobs, atVertex ops locate b = true → Plain b := by
  have pairs := Lists.forall₂_of_mapM done
  constructor
  · intro all b member
    obtain ⟨c, inside, step⟩ := Lists.forall₂_mem_left pairs member
    exact (transformPoint_honours_iff step (honest b member)).mp (all c inside)
  · intro spared c member
    obtain ⟨b, inside, step⟩ := Lists.forall₂_mem_right pairs member
    exact (transformPoint_honours_iff step (honest b inside)).mpr (spared b inside)

end Keeps

end Blobs

end Movid
