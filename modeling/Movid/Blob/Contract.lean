import Movid.Blob.Container
import Movid.Preset.Factory
import Movid.Tracker.Blob

/-!
# What a tag promises

`docs/container.txt` lists the properties that go with each tag. The finders fill new
containers, and whatever is done to a container later on may add to it.
-/

namespace Movid

open Preset (Platform Value ModuleType)

variable {P : Platform}

namespace Container

/-- The list of implements in `docs/container.txt`, without the property that is optional. -/
def promises : List (String × List String) :=
  [("pos", ["x", "y"]), ("size", ["width", "height"]), ("node", ["node_id"]), ("tracked", ["blob_id"]), ("handcenter", []),
    ("fingertip", []), ("fiducial", ["angle", "leaf_size", "root_size", "fiducial_id"])]

def Honours (c : Container P) : Prop :=
  ∀ promise ∈ promises, promise.1.toList ∈ c.tags → ∀ name ∈ promise.2, c.hasProperty name = true

/-- The tags stay and no property gets lost. -/
structure Extends (c d : Container P) : Prop where
  tags : d.tags = c.tags
  has : ∀ name, c.hasProperty name = true → d.hasProperty name = true

variable {c d e : Container P} {name : String} {value : Value P}

theorem Extends.refl (c : Container P) : c.Extends c := ⟨rfl, fun _ has => has⟩

theorem Extends.trans (first : c.Extends d) (second : d.Extends e) : c.Extends e :=
  ⟨second.tags.trans first.tags, fun name has => second.has name (first.has name has)⟩

theorem Extends.honours (larger : c.Extends d) (honours : c.Honours) : d.Honours := by
  intro promise listed tag name promised
  rw [larger.tags] at tag
  exact larger.has name (honours promise listed tag name promised)

theorem hasProperty_put (c : Container P) (name : String) (value : Value P) (other : String) :
    (c.put name value).hasProperty other = (decide (other = name) || c.hasProperty other) := by
  unfold hasProperty
  rw [find_put]
  split
  · rename_i same
    rw [decide_eq_true same]
    rfl
  · rename_i differ
    rw [decide_eq_false differ]
    rfl

theorem tags_put (c : Container P) (value : Value P) (other : name ≠ "implements") : (c.put name value).tags = c.tags := by
  unfold tags implements
  rw [find_put, if_neg other.symm]

theorem extends_put (c : Container P) (value : Value P) (other : name ≠ "implements") : c.Extends (c.put name value) := by
  refine ⟨tags_put c value other, fun asked has => ?_⟩
  rw [hasProperty_put, has, Bool.or_true]

theorem extends_set (done : c.set name value = some d) (other : name ≠ "implements") : c.Extends d := by
  obtain ⟨old, -, rfl⟩ := Option.map_eq_some_iff.mp done
  exact extends_put c _ other

theorem hasProperty_clone (c : Container P) (name : String) : c.clone.hasProperty name = c.hasProperty name := by
  unfold hasProperty
  rw [find_clone, Option.isSome_map]

theorem implements_clone (c : Container P) : c.clone.implements = c.implements := by
  unfold implements
  rw [find_clone, Option.map_map]
  rfl

theorem extends_clone (c : Container P) : c.Extends c.clone := by
  refine ⟨?_, fun name has => ?_⟩
  · unfold tags
    rw [implements_clone]
  · rw [hasProperty_clone, has]

end Container

/-! ### The finders -/

namespace Blobs

def container (properties : List (String × Value P)) : Container P :=
  properties.foldl (fun c p => c.put p.1 p.2) .empty

def text (s : String) : Value P := .string s.toList

variable (ops : Doubles P.Double)

def ratio (a b : Int32) : P.Double := ops.div (ops.ofInt a.toInt) (ops.ofInt b.toInt)

/-- `CvRect`, the bounding box of a contour. -/
structure Rect where
  x : Int32
  y : Int32
  width : Int32
  height : Int32

structure Size where
  width : Int32
  height : Int32

/-- The loop of `moBlobFinderModule::applyFilter`. -/
def blobFinder (minSize maxSize : Int32) (src : Size) (contours : List Rect) : List (Container P) :=
  (contours.filter fun rect => rect.width * rect.height ≥ minSize && rect.width * rect.height ≤ maxSize).map fun rect =>
    container
      [("implements", text "pos,size"), ("x", .double (ratio ops (rect.x + rect.width / 2) src.width)),
        ("y", .double (ratio ops (rect.y + rect.height / 2) src.height)), ("width", .integer rect.width),
        ("height", .integer rect.height)]

/-- `FiducialX`. -/
structure Fiducial (D : Type) where
  id : Int32
  x : D
  y : D
  angle : D
  leafSize : D
  rootSize : D

/-- The loop of `moFiducialFinderModule::applyFilter`. -/
def fiducialFinder (src : Size) (fiducials : List (Fiducial P.Double)) : List (Container P) :=
  (fiducials.filter fun fdx => fdx.id ≥ 0).map fun fdx =>
    container
      [("implements", text "fiducial,pos,tracked"), ("fiducial_id", .integer fdx.id), ("blob_id", .integer fdx.id),
        ("x", .double (ops.div fdx.x (ops.ofInt src.width.toInt))), ("y", .double (ops.div fdx.y (ops.ofInt src.height.toInt))),
        ("angle", .double fdx.angle), ("leaf_size", .double fdx.leafSize), ("root_size", .double fdx.rootSize)]

/-- A contour that is large enough for a hand, with the ends of its defects and the ones of them that
were merged with another. -/
structure Fingers where
  points : List (Int32 × Int32)
  suppressed : List Nat

/-- The last part of `searchPalmCenter`. -/
def searchPalmCenter (src : Size) (peak : Int32 × Int32) : Container P :=
  container
    [("type", text "blob"), ("implements", text "handcenter,pos,node"), ("x", .double (ratio ops peak.1 src.width)),
      ("y", .double (ratio ops peak.2 src.height)), ("node_id", .integer 0)]

/-- The last loop of `searchFingerTips`. -/
def searchFingerTips (src : Size) (fingers : Fingers) : List (Container P) :=
  (fingers.points.zipIdx.filter fun p => p.2 ∉ fingers.suppressed).map fun p =>
    container
      [("type", text "blob"), ("implements", text "fingertip,pos,node"), ("x", .double (ratio ops p.1.1 src.width)),
        ("y", .double (ratio ops p.1.2 src.height)), ("node_id", .integer (Int32.ofNat (p.2 + 1))),
        ("parent_node_id", .integer 0)]

/-- `moFingerTipFinderModule::applyFilter`: the palm center is dropped when there are no fingers. -/
def fingerTipFinder (src : Size) (peak : Option (Int32 × Int32)) (fingers : Option Fingers) : List (Container P) :=
  match peak, fingers with
  | some peak, some fingers => searchPalmCenter ops src peak :: searchFingerTips ops src fingers
  | _, _ => []

/-- A contour with its box and what `findMatchingShape` says. The angle is in radians. -/
structure Shape (D : Type) where
  x : D
  y : D
  angle : D
  index : Int32
  possible : Bool

/-- The loop of `moHuObjectFinderModule::applyFilter` over the contours up to one that is registered. -/
def huObjectFinder (src : Size) (minId : Int32) (contours : List (Shape P.Double)) : List (Container P) :=
  (contours.filter fun shape => shape.index ≥ 0 || shape.possible).map fun shape =>
    container
      [("type", text "blob"),
        ("implements", text ("markerlessobject,pos,volatileangle" ++ if shape.possible then ",volatile" else "")),
        ("x", .double (ops.div shape.x (ops.ofInt src.width.toInt))), ("y", .double (ops.div shape.y (ops.ofInt src.height.toInt))),
        ("angle", .double shape.angle), ("fiducial_id", .integer (if shape.possible then -1 else minId + shape.index))]

/-- What is found in an image, for each of the finders. -/
inductive Sight (P : Platform) where
  | contours (minSize maxSize : Int32) (src : Size) (contours : List Rect)
  | fiducials (src : Size) (fiducials : List (Fiducial P.Double))
  | hand (src : Size) (peak : Option (Int32 × Int32)) (fingers : Option Fingers)
  | shapes (src : Size) (minId : Int32) (contours : List (Shape P.Double))

def Sight.finder : Sight P → ModuleType
  | contours .. => .blobFinder
  | fiducials .. => .fiducialFinder
  | hand .. => .fingerTipFinder
  | shapes .. => .huObjectFinder

def Sight.blobs : Sight P → List (Container P)
  | contours minSize maxSize src rects => blobFinder ops minSize maxSize src rects
  | fiducials src found => fiducialFinder ops src found
  | hand src peak fingers => fingerTipFinder ops src peak fingers
  | shapes src minId found => huObjectFinder ops src minId found

/-! ### The finders keep their promises -/

theorem find_foldl_put (properties : List (String × Value P)) (c : Container P) (name : String) :
    (properties.foldl (fun c p => c.put p.1 p.2) c).find name =
      ((properties.reverse.find? (·.1 = name)).map (·.2)).or (c.find name) := by
  induction properties generalizing c with
  | nil => rfl
  | cons p rest ih =>
    rw [List.foldl_cons, ih, List.reverse_cons, List.find?_append, Container.find_put]
    cases List.find? (·.1 = name) rest.reverse with
    | some q => rfl
    | none =>
      rw [List.find?_cons]
      by_cases same : p.1 = name
      · simp [same]
      · simp [same, Ne.symm same]

theorem find_container (properties : List (String × Value P)) (name : String) :
    (container properties).find name = (properties.reverse.find? (·.1 = name)).map (·.2) := by
  unfold container
  rw [find_foldl_put]
  exact Option.or_none

theorem hasProperty_container (properties : List (String × Value P)) (name : String) :
    (container properties).hasProperty name = decide (name ∈ properties.map (·.1)) := by
  unfold Container.hasProperty
  rw [find_container, Option.isSome_map, Bool.eq_iff_iff, List.find?_isSome, decide_eq_true_eq, List.mem_map]
  simp only [List.mem_reverse, decide_eq_true_eq]

def covers (implements : Str) (names : List String) : Bool :=
  Container.promises.all fun promise => Container.inTags promise.1 implements ≠ some true || promise.2.all (· ∈ names)

theorem honours_container {properties : List (String × Value P)} (implements : String) (names : List String)
    (found : (properties.reverse.find? (·.1 = "implements")).map (·.2) = some (text implements))
    (named : properties.map (·.1) = names) (covered : covers implements.toList names = true) :
    (container properties).Honours := by
  have read : (container properties).implements = some implements.toList := by
    unfold Container.implements
    rw [find_container, found]
    rfl
  intro promise listed tag name promised
  rw [Container.tags_eq read] at tag
  have kept := List.all_eq_true.mp covered promise listed
  rw [Container.inTags_eq, decide_eq_true tag] at kept
  rw [hasProperty_container, named]
  exact List.all_eq_true.mp kept name promised

theorem blobFinder_honours {minSize maxSize : Int32} {src : Size} {contours : List Rect} {c : Container P}
    (member : c ∈ blobFinder ops minSize maxSize src contours) : c.Honours := by
  obtain ⟨rect, -, rfl⟩ := List.mem_map.mp member
  exact honours_container "pos,size" ["implements", "x", "y", "width", "height"] rfl rfl (by decide)

theorem fiducialFinder_honours {src : Size} {fiducials : List (Fiducial P.Double)} {c : Container P}
    (member : c ∈ fiducialFinder ops src fiducials) : c.Honours := by
  obtain ⟨fdx, -, rfl⟩ := List.mem_map.mp member
  exact honours_container "fiducial,pos,tracked"
    ["implements", "fiducial_id", "blob_id", "x", "y", "angle", "leaf_size", "root_size"] rfl rfl (by decide)

theorem fingerTipFinder_honours {src : Size} {peak : Option (Int32 × Int32)} {fingers : Option Fingers} {c : Container P}
    (member : c ∈ fingerTipFinder ops src peak fingers) : c.Honours := by
  unfold fingerTipFinder at member
  split at member
  · rcases List.mem_cons.mp member with rfl | tip
    · exact honours_container "handcenter,pos,node" ["type", "implements", "x", "y", "node_id"] rfl rfl (by decide)
    · obtain ⟨p, -, rfl⟩ := List.mem_map.mp tip
      exact honours_container "fingertip,pos,node" ["type", "implements", "x", "y", "node_id", "parent_node_id"] rfl rfl
        (by decide)
  · cases member

theorem huObjectFinder_honours {src : Size} {minId : Int32} {contours : List (Shape P.Double)} {c : Container P}
    (member : c ∈ huObjectFinder ops src minId contours) : c.Honours := by
  obtain ⟨shape, -, rfl⟩ := List.mem_map.mp member
  apply honours_container _ ["type", "implements", "x", "y", "angle", "fiducial_id"] rfl rfl
  cases shape.possible with
  | true => decide
  | false => decide

theorem Sight.blobs_honour (sight : Sight P) {c : Container P} (member : c ∈ sight.blobs ops) : c.Honours := by
  cases sight with
  | contours => exact blobFinder_honours ops member
  | fiducials => exact fiducialFinder_honours ops member
  | hand => exact fingerTipFinder_honours ops member
  | shapes => exact huObjectFinder_honours ops member

end Blobs

end Movid
