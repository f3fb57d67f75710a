import Movid.Tracker.Blob

/-!
# One update of a blob tracker

`update` ages the old blobs, copies the frame, lets `trackBlobs` give every new blob an id,
and keeps lost blobs for a while. `trackBlobs` is a loop over the new blobs whose only
effect outside the tracker is to draw from the shared counter, so it is cut into steps of
one blob each.
-/

namespace Movid.Tracker

variable {D : Type} (ops : Doubles D)

/-! ### `moGreedyBlobTrackerModule::trackBlobs` -/

structure Closest (D : Type) where
  blob : Option (Blob D)
  minDistance : D

/-- Whether the rules on fiducials let the old blob be the new one. -/
def compatible (blob old : Blob D) (newIsFid newIsVolatile oldIsFid : Bool) : Option Bool :=
  if oldIsFid && newIsFid && !newIsVolatile then
    blob.fiducialId.bind fun fid => old.fiducialId.map fun oldFid => fid == oldFid
  else some (oldIsFid || !newIsFid)

def distance (blob old : Blob D) : D :=
  let dx := ops.sub old.x blob.x
  let dy := ops.sub old.y blob.y
  ops.sqrt (ops.add (ops.mul dx dx) (ops.mul dy dy))

def consider (reused : List Int) (blob : Blob D) (newIsFid newIsVolatile : Bool) (closest : Closest D)
    (old : Blob D) : Option (Closest D) :=
  if old.blobId ∈ reused then some closest
  else
    (isFid old.implements).bind fun oldIsFid =>
      (compatible blob old newIsFid newIsVolatile oldIsFid).map fun fits =>
        if fits && ops.lt (distance ops blob old) closest.minDistance then
          { blob := some old, minDistance := distance ops blob old }
        else closest

/-- A volatile blob takes over the fiducial id of the blob it is matched with. -/
def copyFid (blob closest : Blob D) (newIsFid newIsVolatile oldIsFid : Bool) : Option (Blob D) :=
  if oldIsFid && newIsFid && newIsVolatile then
    closest.fiducialId.bind fun oldFid => blob.fiducialId.map fun _ => { blob with fiducialId := some oldFid }
  else some blob

/-- The body of the loop over the new blobs: the blob with its id, and whether the id was
drawn from the counter. -/
def greedyTrack (settings : Settings D) (old : List (Blob D)) (reused : List Int) (counter : Int)
    (blob : Blob D) : Option (Blob D × List Int × Int) :=
  (isFid blob.implements).bind fun newIsFid =>
    (isVolatile blob.implements).bind fun newIsVolatile =>
      (old.foldlM (consider ops reused blob newIsFid newIsVolatile) ⟨none, settings.maxDistance⟩).bind fun found =>
        match found.blob with
        | some closest =>
          (isFid closest.implements).bind fun oldIsFid =>
            (copyFid blob closest newIsFid newIsVolatile oldIsFid).map fun blob =>
              (blob.setId closest.blobId, reused ++ [closest.blobId], counter)
        | none => some (blob.setId (counter + 1), reused, counter + 1)

/-- The last loop: volatile blobs without a fiducial id expire unless they are retained. -/
def expire (settings : Settings D) (blob : Blob D) : Option (Blob D) :=
  (isVolatile blob.implements).bind fun newIsVolatile =>
    if newIsVolatile then
      blob.fiducialId.map fun fid => if fid == -1 then blob.setAge (settings.maxAge + 1) else blob
    else some blob

/-! ### `moMunkresBlobTrackerModule::trackBlobs` -/

def dimFinger : Nat := 32

def normalize (value : D) : Int := ops.toInt (ops.mul value (ops.ofInt 10000))

def clamp15 (x : Int) : Int := max (-32767) (min 32767 x)

def dist2 (dx dy : Int) : Int := clamp15 dx * clamp15 dx + clamp15 dy * clamp15 dy

/-- The distance matrix `A`, one row for each old blob. -/
def distances (new old : List (Blob D)) : List Int :=
  old.flatMap fun o => new.map fun b =>
    dist2 (normalize ops b.x - normalize ops o.x) (normalize ops b.y - normalize ops o.y)

/-- `mtdev_match`: from the matrix and the numbers of new and old blobs to `n2s`. -/
abbrev Matching := List Int → Nat → Nat → List Int

/-- The body of the last loop, for the entry `j` of `n2s`. -/
def munkresTrack (old : List (Blob D)) (j : Int) (counter : Int) (blob : Blob D) : Option (Blob D × Int) :=
  (if 0 ≤ j then (ids old)[j.toNat]? else some (-10)).map fun id =>
    if id = -10 then (blob.setId (counter + 1), counter + 1) else (blob.setId id, counter)

/-! ### `moAbstractBlobTrackerModule::trackAngles` -/

def radToDeg (rad : D) : D := ops.mul rad (ops.div (ops.ofInt 180) ops.pi)

def degToRad (deg : D) : D := ops.mul deg (ops.div ops.pi (ops.ofInt 180))

/-- The body of the loop over the new blobs. -/
def trackAngle (settings : Settings D) (old : List (Blob D)) (blob : Blob D) : Option (Blob D) :=
  (inTags "volatileangle" blob.implements).bind fun tracked =>
    if tracked then
      blob.angle.bind fun rad =>
        let angle := ops.toInt (radToDeg ops rad)
        match old.find? (·.blobId == blob.blobId) with
        | none => some { blob with lastAngle := some angle, fallenOver := some 0 }
        | some o =>
          o.fallenOver.bind fun fallenOver => o.lastAngle.map fun lastAngle =>
            let fallenOver :=
              if ((lastAngle - angle).natAbs : Int) > settings.maxRotationSpeed then
                if lastAngle > angle then fallenOver + 1 else fallenOver - 1
              else fallenOver
            -- C++ rounds the quotient towards zero, so the remainder is `tmod`.
            let trackedAngle := ((angle + 90 * fallenOver).tmod 360 + 360).tmod 360
            { blob with
              fallenOver := some fallenOver
              lastAngle := some angle
              angle := some (degToRad ops (ops.ofInt trackedAngle)) }
    else some blob

/-! ### The rest of `update` -/

/-- The age that a blob takes over from the old blob it is matched with. -/
def Settings.renew (settings : Settings D) (age : Int) : Int :=
  if settings.inWindow age then settings.minAge else age

/-- The body of the loop over the old blobs: a match passes its age on, a lost blob stays for
as long as the window allows. -/
def retain (settings : Settings D) (new : List (Blob D)) (old : Blob D) : List (Blob D) :=
  match new.findIdx? (·.blobId == old.blobId) with
  | some i => new.modify i (.setAge (settings.renew old.age))
  | none => if settings.inWindow old.age then new ++ [old] else new

inductive Kind where
  | greedy
  | munkres
  deriving DecidableEq

/-- The state of `update` inside the loop of `trackBlobs`. -/
structure Progress (D : Type) where
  settings : Settings D
  frame : List (Detection D)
  old : List (Blob D)
  done : List (Blob D)
  todo : List (Blob D)
  reused : List Int
  n2s : List Int

/-- `update` up to that loop. The Munkres tracker asserts that the blobs fit its arrays. -/
def begin (mtdevMatch : Matching) (kind : Kind) (settings : Settings D) (oldBlobs : List (Blob D))
    (frame : List (Detection D)) : Option (Progress D) :=
  let old := oldBlobs.map .older
  let new := frame.map Detection.clone
  match kind with
  | .greedy => some { settings, frame, old, done := [], todo := new, reused := [], n2s := [] }
  | .munkres =>
    if old.length < dimFinger ∧ new.length < dimFinger then
      let n2s := mtdevMatch (distances ops new old) new.length old.length
      some { settings, frame, old, done := [], todo := new, reused := [], n2s }
    else none

def track (kind : Kind) (p : Progress D) (counter : Int) : Option (Progress D × Int) :=
  match p.todo with
  | [] => some (p, counter)
  | blob :: todo =>
    match kind with
    | .greedy =>
      (greedyTrack ops p.settings p.old p.reused counter blob).map fun (blob, reused, counter) =>
        ({ p with done := p.done ++ [blob], todo, reused }, counter)
    | .munkres =>
      match p.n2s with
      | [] => none
      | j :: n2s =>
        (munkresTrack p.old j counter blob).map fun (blob, counter) =>
          ({ p with done := p.done ++ [blob], todo, n2s }, counter)

/-- What one update leaves behind: the frame it was given, the aged old blobs and the new
blobs as `trackBlobs` leaves them, the list for the next frame and the list it pushes. -/
structure Report (D : Type) where
  settings : Settings D
  frame : List (Detection D)
  old : List (Blob D)
  detected : List (Blob D)
  list : List (Blob D)
  pushed : List (Blob D)

/-- `update` after that loop. -/
def finish (kind : Kind) (p : Progress D) : Option (Report D) :=
  (match kind with
    | .greedy => p.done.mapM (expire p.settings)
    | .munkres => some p.done).bind fun detected =>
  (detected.mapM (trackAngle ops p.settings p.old)).map fun new =>
    let list := p.old.foldl (retain p.settings) new
    { settings := p.settings, frame := p.frame, old := p.old, detected, list
      pushed := list.filter fun blob => p.settings.inWindow blob.age }

end Movid.Tracker
