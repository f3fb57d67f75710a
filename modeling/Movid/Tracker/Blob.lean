import Movid.Utils

/-!
# Blobs, as the trackers see them

A blob is a container of named properties. `update` clones the blobs of a frame, so every
property it reads is the string form of what the finder wrote; a detection holds the values
that the accessors give for these strings. A property that only some finders write is
optional, and reading it where it is missing ends the program.
-/

namespace Movid

/-- The double arithmetic of the trackers. Nothing is assumed of it. -/
structure Doubles (D : Type) where
  add : D → D → D
  sub : D → D → D
  mul : D → D → D
  div : D → D → D
  sqrt : D → D
  lt : D → D → Bool
  ofInt : Int → D
  /-- The conversion to `int`. -/
  toInt : D → Int
  pi : D

namespace Tracker

structure Detection (D : Type) where
  implements : Str
  x : D
  y : D
  angle : Option D
  fiducialId : Option Int
  deriving DecidableEq

/-- A blob of `new_blobs` or `old_blobs`. -/
structure Blob (D : Type) extends Detection D where
  blobId : Int
  age : Int
  lastAngle : Option Int
  fallenOver : Option Int
  deriving DecidableEq

variable {D : Type}

/-- The body of the loop of `update` that copies the blobs of the frame. -/
def Detection.clone (d : Detection D) : Blob D where
  implements := d.implements ++ ",tracked".toList
  x := d.x
  y := d.y
  angle := d.angle
  fiducialId := d.fiducialId
  blobId := 0
  age := 0
  lastAngle := none
  fallenOver := none

def Blob.older (blob : Blob D) : Blob D := { blob with age := blob.age + 1 }

@[simp] theorem Blob.older_blobId (blob : Blob D) : blob.older.blobId = blob.blobId := rfl

@[simp] theorem Blob.older_age (blob : Blob D) : blob.older.age = blob.age + 1 := rfl

def Blob.setId (id : Int) (blob : Blob D) : Blob D := { blob with blobId := id }

def Blob.setAge (age : Int) (blob : Blob D) : Blob D := { blob with age }

def ids (blobs : List (Blob D)) : List Int := blobs.map (·.blobId)

def inTags (tag : String) (implements : Str) : Option Bool := Utils.inList tag.toList implements [',']

def isFid (implements : Str) : Option Bool :=
  (inTags "fiducial" implements).bind fun fiducial =>
    if fiducial then some true else inTags "markerlessobject" implements

def isVolatile (implements : Str) : Option Bool := inTags "volatile" implements

structure Settings (D : Type) where
  maxAge : Int
  minAge : Int
  maxRotationSpeed : Int
  maxDistance : D

/-- The window in which a blob is kept although it was lost, and in which it is pushed. -/
def Settings.inWindow (settings : Settings D) (age : Int) : Bool :=
  age ≤ settings.maxAge && age ≥ settings.minAge

end Tracker

end Movid
