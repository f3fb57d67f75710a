import Mathlib.Data.Char
import Movid.Graph.Requests
import Movid.Lib.OrderedMap
import Movid.Preset.Property

/-!
# The registered modules

What the constructors declare: the inputs and outputs, and the properties with their default
values. `AUTOCONVERT` keeps the type of a property, so the constructor decides it; a property
that is made later on is a string.
-/

namespace Movid.Preset

inductive ModuleType where
  | amplify
  | backgroundSubtract
  | binaryMask
  | blobFinder
  | calibration
  | camera
  | canny
  | combine
  | dilate
  | distanceTransform
  | dump
  | erode
  | equalizeHist
  | fiducialFinder
  | fingerTipFinder
  | grayScale
  | greedyBlobTracker
  | highpass
  | hsv
  | huObjectFinder
  | image
  | imageDisplay
  | invert
  | justify
  | mask
  | mirrorImage
  | munkresBlobTracker
  | peakFinder
  | roi
  | smooth
  | threshold
  | tuio
  | tuio2
  | video
  | yCrCbThreshold
  deriving DecidableEq

/-- The value that a constructor gives to a property. -/
inductive Default where
  | bool (b : Bool)
  | string (s : Str)
  | integer (n : Int32)
  | double (literal : Str)
  | screenPoints
  | noPoints
  deriving DecidableEq

namespace Default

def type : Default → PropertyType
  | bool _ => .bool
  | string _ => .string
  | integer _ => .integer
  | double _ => .double
  | screenPoints | noPoints => .pointList

/-- `Calibration` builds the grid for its default size. -/
def value (P : Platform) : Default → Value P
  | bool b => .bool b
  | string s => .string s
  | integer n => .integer n
  | double literal => .double (P.atof literal)
  | screenPoints => .pointList (Value.convertToPointList P (P.grid 3 3))
  | noPoints => .pointList []

theorem value_type (P : Platform) (d : Default) : (d.value P).type = d.type := by cases d <;> rfl

end Default

namespace ModuleType

/-- `getName`. -/
def name : ModuleType → Str
  | amplify => "Amplify".toList
  | backgroundSubtract => "BackgroundSubtract".toList
  | binaryMask => "BinaryMask".toList
  | blobFinder => "BlobFinder".toList
  | calibration => "Calibration".toList
  | camera => "Camera".toList
  | canny => "Canny".toList
  | combine => "Combine".toList
  | dilate => "Dilate".toList
  | distanceTransform => "DistanceTransform".toList
  | dump => "Dump".toList
  | erode => "Erode".toList
  | equalizeHist => "EqualizeHist".toList
  | fiducialFinder => "FiducialFinder".toList
  | fingerTipFinder => "FingerTipFinder".toList
  | grayScale => "GrayScale".toList
  | greedyBlobTracker => "GreedyBlobTracker".toList
  | highpass => "Highpass".toList
  | hsv => "Hsv".toList
  | huObjectFinder => "HuObjectFinder".toList
  | image => "Image".toList
  | imageDisplay => "ImageDisplay".toList
  | invert => "Invert".toList
  | justify => "Justify".toList
  | mask => "Mask".toList
  | mirrorImage => "MirrorImage".toList
  | munkresBlobTracker => "MunkresBlobTracker".toList
  | peakFinder => "PeakFinder".toList
  | roi => "Roi".toList
  | smooth => "Smooth".toList
  | threshold => "Threshold".toList
  | tuio => "Tuio".toList
  | tuio2 => "Tuio2".toList
  | video => "Video".toList
  | yCrCbThreshold => "YCrCbThreshold".toList

def inputs : ModuleType → List Str
  | camera | image | video => []
  | binaryMask => ["IplImage8".toList, "IplImage8".toList]
  | combine => ["IplImage".toList, "IplImage".toList]
  | backgroundSubtract | equalizeHist | imageDisplay | invert | smooth => ["IplImage,IplImage8".toList]
  | blobFinder | canny | dilate | erode | fiducialFinder | fingerTipFinder | huObjectFinder | threshold =>
    ["IplImage8".toList]
  | amplify | distanceTransform | grayScale | highpass | hsv | mask | mirrorImage | peakFinder | roi |
    yCrCbThreshold => ["IplImage".toList]
  | greedyBlobTracker | justify | munkresBlobTracker => ["blob".toList]
  | calibration | tuio | tuio2 => ["trackedblob".toList]
  | dump => ["*".toList]

def outputs : ModuleType → List Str
  | dump | imageDisplay | tuio | tuio2 => []
  | amplify | combine | distanceTransform | highpass | image | mask | mirrorImage | peakFinder | roi | video =>
    ["IplImage".toList]
  | binaryMask | canny | dilate | erode | grayScale | hsv | threshold | yCrCbThreshold => ["IplImage8".toList]
  | backgroundSubtract | camera | equalizeHist | invert | smooth => ["IplImage".toList, "IplImage8".toList]
  | blobFinder | fiducialFinder => ["IplImage".toList, "blob".toList]
  | fingerTipFinder => ["IplImage8".toList, "blob".toList]
  | huObjectFinder => ["IplImage8".toList, "blob".toList, "IplImage8".toList]
  | calibration | greedyBlobTracker | munkresBlobTracker => ["trackedblob".toList]
  | justify => ["GenericTouch".toList]

section Properties

variable (name : String)

def bool (b : Bool) : Str × Default := (name.toList, .bool b)

def string (s : String) : Str × Default := (name.toList, .string s.toList)

def integer (n : Int32) : Str × Default := (name.toList, .integer n)

def double (literal : String) : Str × Default := (name.toList, .double literal.toList)

def screenPoints : Str × Default := (name.toList, .screenPoints)

def noPoints : Str × Default := (name.toList, .noPoints)

end Properties

/-- The properties that the constructors set, besides `id` and the window name of a display.
`Justify` sets `dx` twice and never `dy`. -/
def properties : ModuleType → List (Str × Default)
  | amplify => [double "amplification" "0.2"]
  | backgroundSubtract => [bool "recapture" true, bool "toggle" false, bool "absolute" false]
  | blobFinder => [integer "min_size" 4, integer "max_size" 2500]
  | calibration =>
    [integer "rows" 3, integer "cols" 3, screenPoints "screenPoints", noPoints "surfacePoints",
      bool "calibrate" false, integer "duration_per_point" 50]
  | camera => [integer "index" 0]
  | canny => [integer "lower_threshold" 100, integer "upper_threshold" 200]
  | dilate => [integer "iterations" 1]
  | distanceTransform => [integer "scale" 5, string "mask_size" "5", string "metric" "L2"]
  | erode => [integer "iterations" 1]
  | fingerTipFinder =>
    [double "min_distance" "20.", double "min_area" "150.", double "merge_distance" "25.",
      bool "adaptive_merge" true]
  | greedyBlobTracker =>
    [integer "max_age" 10, integer "min_age" 3, integer "max_rotation_speed" 46, double "max_distance" "0.1"]
  | highpass => [integer "size" 2, integer "blur" 2]
  | hsv =>
    [integer "hmin" 0, integer "hmax" 20, integer "smin" 0, integer "smax" 20, integer "vmin" 0,
      integer "vmax" 255]
  | huObjectFinder =>
    [integer "min_id" 513, integer "max_size_difference" 1500, double "max_match_score" "0.5",
      double "min_area" "150.", bool "register" false, bool "consider_holes" false,
      bool "consider_shape" true, bool "draw_bounding_box" true]
  | image => [string "filename" ""]
  | justify =>
    [double "dx" "0.0", double "dx" "0.0", double "ma" "1.0", double "mb" "0.0", double "mc" "0.0",
      double "md" "1.0"]
  | mask => [string "saveas" "", string "filename" ""]
  | mirrorImage => [string "mirrorAxis" "x"]
  | munkresBlobTracker => [integer "max_age" 10, integer "min_age" 3, integer "max_rotation_speed" 46]
  | peakFinder =>
    [double "min_value" "0.", double "max_value" "255.", integer "max_peaks" 1, double "merge_distance" "4."]
  | roi => [integer "left" 20, integer "top" 10, integer "width" 200, integer "height" 100]
  | smooth => [integer "size" 1, string "filter" "median"]
  | threshold =>
    [integer "threshold" 50, bool "adaptive" false, integer "block_size" 21, string "mode" "mean",
      string "type" "binary"]
  | tuio => [string "ip" "127.0.0.1", integer "port" 3333, bool "sendsize" true]
  | tuio2 => [string "ip" "127.0.0.1", integer "port" 3333]
  | video => [string "filename" "", bool "loop" true]
  | yCrCbThreshold =>
    [integer "Y_min" 0, integer "Y_max" 255, integer "Cr_min" 145, integer "Cr_max" 175, integer "Cb_min" 100,
      integer "Cb_max" 130]
  | binaryMask | combine | dump | equalizeHist | fiducialFinder | grayScale | imageDisplay | invert => []

/-- The constructor of `moModule` runs first. -/
def defaults (t : ModuleType) : OrderedMap Str Default :=
  .ofList ([bool "use_thread" false, string "gui_feedback" ""] ++ t.properties)

def declaredType (t : ModuleType) (name : Str) : PropertyType := ((t.defaults.find name).map Default.type).getD .string

/-- What a callback of a property does that can be seen in the properties or as an error. -/
inductive Callback where
  | none
  | loadImage (msg : Str)
  | buildScreenPoints

def callback : ModuleType → Str → Callback
  | image, name => if name = "filename".toList then .loadImage "unable to load image".toList else .none
  | mask, name => if name = "filename".toList then .loadImage "unable to load mask file".toList else .none
  | calibration, name => if name = "rows".toList ∨ name = "cols".toList then .buildScreenPoints else .none
  | _, _ => .none

/-- The order of `REGISTER_MODULE`. -/
def registered : List ModuleType :=
  [amplify, backgroundSubtract, binaryMask, blobFinder, calibration, camera,
    canny, combine, dilate, distanceTransform, dump, erode, equalizeHist, fiducialFinder,
    fingerTipFinder, grayScale, greedyBlobTracker, highpass, hsv, huObjectFinder, image,
    imageDisplay, invert, justify, mask, mirrorImage, munkresBlobTracker, peakFinder, roi,
    smooth, threshold, tuio, tuio2, video, yCrCbThreshold]

/-- `moFactory::create`, up to the call of the constructor. -/
def ofName (name : Str) : Option ModuleType :=
  let name := if name.length > 2 ∧ name.take 2 = "mo".toList then name.drop 2 else name
  let name := if name.length > 6 ∧ name.drop (name.length - 6) = "Module".toList then name.take (name.length - 6) else name
  registered.find? (·.name = name)

/-! ### Facts about the table -/

theorem ofName_name (t : ModuleType) : ofName t.name = some t := by cases t <;> decide

theorem name_token (t : ModuleType) : Text.Token t.name := by cases t <;> decide

theorem inputs_short (t : ModuleType) : t.inputs.length ≤ 3 := by cases t <;> decide

theorem outputs_short (t : ModuleType) : t.outputs.length ≤ 3 := by cases t <;> decide

theorem defaults_clean {t : ModuleType} {e : Str × Default} (member : e ∈ t.defaults.entries) :
    Text.Token e.1 ∧ e.1 ≠ "id".toList ∧ ∀ s, e.2 = .string s → Text.NoSpace s := by
  have table : ∀ e ∈ [bool "use_thread" false, string "gui_feedback" ""] ++ t.properties,
      Text.Token e.1 ∧ e.1 ≠ "id".toList ∧
        (match e.2 with | .string s => s.all (!Text.isSpace ·) | _ => true) = true := by cases t <;> decide
  obtain ⟨token, notId, clean⟩ := table e (OrderedMap.mem_ofList member)
  refine ⟨token, notId, fun s same c inside => ?_⟩
  rw [same] at clean
  simpa using List.all_eq_true.mp clean c inside

theorem declaredType_id (t : ModuleType) : t.declaredType "id".toList = .string := by
  unfold declaredType
  cases found : t.defaults.find "id".toList with
  | none => rfl
  | some d => exact absurd rfl (defaults_clean (OrderedMap.mem_of_find found)).2.1

theorem declaredType_name : imageDisplay.declaredType "name".toList = .string := by decide

theorem loadImage_name {t : ModuleType} {name msg : Str} (h : t.callback name = .loadImage msg) :
    name = "filename".toList ∧ t.declaredType name = .string := by
  unfold callback at h
  split at h
  · split at h
    · rename_i same
      exact ⟨same, by rw [same]; decide⟩
    · cases h
  · split at h
    · rename_i same
      exact ⟨same, by rw [same]; decide⟩
    · cases h
  · split at h <;> cases h
  · cases h

theorem buildScreenPoints_name {t : ModuleType} {name : Str} (h : t.callback name = .buildScreenPoints) :
    name < "screenPoints".toList ∧ t.declaredType name = .integer := by
  unfold callback at h
  split at h
  · split at h <;> cases h
  · split at h <;> cases h
  · split at h
    · rename_i same
      rcases same with rfl | rfl <;> exact ⟨by decide, by decide⟩
    · cases h
  · cases h

theorem callback_id (t : ModuleType) : t.callback "id".toList = .none := by cases t <;> rfl

end ModuleType

end Movid.Preset
