import Movid.Lib.Machine
import Movid.Server.App
import Movid.Server.Query
import Mathlib.Data.List.Destutter
import Mathlib.Data.List.ReduceOption

/-!
# Streams to the browser

`web_pipeline_stream` gives the text of `scale` to a property of the stream module. The module divides
by it when it makes its buffer, for the first image and for every one with another number of channels.
-/

namespace Movid.Server

open Preset (Platform Property Config App getModuleById)
open Query (evhttpParseQuery evhttpFindHeader)

/-- What is read of an image. -/
structure IplImage where
  width : Int32
  height : Int32
  depth : Int32
  nChannels : Int32
  deriving DecidableEq

/-- An image of positive size. -/
structure Source extends IplImage where
  wide : 0 < width
  high : 0 < height

/-- `cvCreateImage` raises an error for sizes that it does not take. It takes the positive ones, as long as there is memory. -/
structure Allocator where
  cvCreateImage : IplImage → Option IplImage
  creates : ∀ image : IplImage, 0 < image.width → 0 < image.height → cvCreateImage image = some image

/-- `otStreamModule`. -/
structure StreamModule (P : Platform) where
  scale : Property P
  outputBuffer : Option IplImage

structure ChunkReqState (P : Platform) where
  stream : StreamModule P
  delay : Int32

/-- `/` of C traps on a divisor of zero and on a quotient that is no `int`. -/
def quotient (a b : Int32) : Option Int32 := if b = 0 ∨ a = Int32.minValue ∧ b = -1 then none else some (a / b)

variable {P : Platform}

namespace StreamModule

def new : StreamModule P := { scale := .new (.integer 1), outputBuffer := none }

/-- The test for a new buffer. -/
def allocates (s : StreamModule P) (src : IplImage) : Bool :=
  match s.outputBuffer with
  | none => true
  | some buffer => buffer.nChannels != src.nChannels

/-- The size and the format of the new buffer. -/
def scaled (s : StreamModule P) (src : IplImage) : IplImage where
  width := src.width / s.scale.value.asInteger
  height := src.height / s.scale.value.asInteger
  depth := src.depth
  nChannels := src.nChannels

/-- `data` is what the input holds. `none` is a trap or an error of OpenCV. -/
def notifyData (cv : Allocator) (s : StreamModule P) (data : Option Source) : Option (StreamModule P) :=
  match data with
  | none => some s
  | some src =>
    if s.allocates src.toIplImage then do
      let width ← quotient src.width s.scale.value.asInteger
      let height ← quotient src.height s.scale.value.asInteger
      let buffer ← cv.cvCreateImage { width, height, depth := src.depth, nChannels := src.nChannels }
      some { s with outputBuffer := some buffer }
    else some s

/-- The divisions for the image, if there are any, have a divisor and give a size. -/
def Divides (s : StreamModule P) (data : Option Source) : Prop :=
  ∀ src ∈ data, s.allocates src.toIplImage = true →
    s.scale.value.asInteger ≠ 0 ∧ 1 ≤ src.width / s.scale.value.asInteger ∧ 1 ≤ src.height / s.scale.value.asInteger

end StreamModule

/-- The handler up to the reply, when there is memory. -/
def webPipelineStream (w : Net (Config P)) (uri : Option Str) : Except Str (ChunkReqState P) :=
  match uri with
  | none => .error "unable to retreive uri".toList
  | some uri =>
    let headers := evhttpParseQuery uri
    match evhttpFindHeader headers "objectname".toList with
    | none => .error "missing objectname".toList
    | some objectname =>
      match getModuleById w objectname with
      | none => .error "object not found".toList
      | some r =>
        match w.getOutput r (App.index (evhttpFindHeader headers "index".toList)) with
        | none => .error "invalid index".toList
        | some _ =>
          let stream : StreamModule P := .new
          let stream :=
            match evhttpFindHeader headers "scale".toList with
            | none => stream
            | some value => { stream with scale := stream.scale.set value }
          .ok { stream, delay := ((evhttpFindHeader headers "delay".toList).map Text.atoi).getD 100 }

/-- The number that the text of the parameter stands for; one without the parameter. -/
def requestedScale (uri : Option Str) : Int32 :=
  ((uri.bind fun uri => evhttpFindHeader (evhttpParseQuery uri) "scale".toList).map Text.atoi).getD 1

/-- The image is no smaller than the divisor. -/
def Fits (scale : Int32) (src : Source) : Prop := 1 ≤ scale ∧ scale ≤ src.width ∧ scale ≤ src.height

def OtherChannels (a b : Source) : Prop := a.nChannels ≠ b.nChannels

instance : DecidableRel OtherChannels := fun a b => inferInstanceAs (Decidable (a.nChannels ≠ b.nChannels))

/-- The images that need a buffer: the first one, and each one with another number of channels than the one before it. -/
def needing (images : List (Option Source)) : List Source := images.reduceOption.destutter OtherChannels

variable {cv : Allocator}

/-! ### The request -/

/-- A request that is accepted names an output. The module is new, and only its scale is from the request. -/
theorem webPipelineStream_ok {w : Net (Config P)} {uri : Option Str} {state : ChunkReqState P} (opened : webPipelineStream w uri = .ok state) :
    state.stream.outputBuffer = none ∧ state.stream.scale.value.asInteger = requestedScale uri := by
  unfold webPipelineStream at opened
  split at opened
  · cases opened
  · rename_i uri
    simp only at opened
    split at opened
    · cases opened
    · split at opened
      · cases opened
      · split at opened
        · cases opened
        · cases opened
          simp only [requestedScale, Option.bind_some]
          cases evhttpFindHeader (evhttpParseQuery uri) "scale".toList with
          | none => exact ⟨rfl, rfl⟩
          | some value => exact ⟨rfl, rfl⟩

/-- A request that is refused leaves the pipeline alone. -/
theorem webPipelineStream_refused {a : App P} {uri text : Str} (refused : webPipelineStream a.net (some uri) = .error text) (config : Config P) :
    a.webPipelineStream (evhttpFindHeader (evhttpParseQuery uri) "objectname".toList) (evhttpFindHeader (evhttpParseQuery uri) "index".toList)
      config = a := by
  unfold webPipelineStream at refused
  unfold App.webPipelineStream
  simp only at refused
  cases named : evhttpFindHeader (evhttpParseQuery uri) "objectname".toList with
  | none => rfl
  | some objectname =>
    rw [named] at refused
    simp only [Option.bind_some] at refused ⊢
    cases found : getModuleById a.net objectname with
    | none => rfl
    | some r =>
      rw [found] at refused
      simp only at refused ⊢
      cases output : a.net.getOutput r (App.index (evhttpFindHeader (evhttpParseQuery uri) "index".toList)) with
      | none => rfl
      | some stream =>
        rw [output] at refused
        cases refused

/-! ### One image -/

theorem ne_minValue {a : Int32} (positive : 0 < a) : a ≠ Int32.minValue := by
  rintro rfl
  exact absurd positive (by decide)

theorem quotient_eq {a b : Int32} (positive : 0 < a) (divisor : b ≠ 0) : quotient a b = some (a / b) := by
  refine if_neg ?_
  rintro (zero | ⟨least, -⟩)
  · exact divisor zero
  · exact ne_minValue positive least

theorem one_le_div_iff {a b : Int32} (positive : 0 < a) : 1 ≤ a / b ↔ 1 ≤ b ∧ b ≤ a := by
  have proper := ne_minValue positive
  rw [Int32.lt_iff_toInt_lt, Int32.toInt_zero] at positive
  rw [Int32.le_iff_toInt_le, Int32.le_iff_toInt_le, Int32.le_iff_toInt_le, Int32.toInt_div_of_ne_left a b proper, Int32.toInt_one]
  rcases lt_or_ge 0 b.toInt with up | down
  · rw [Int.tdiv_eq_ediv_of_nonneg positive.le, Int.le_ediv_iff_mul_le up, Int.one_mul]
    exact (and_iff_right up).symm
  · have low := Int.tdiv_nonpos_of_nonneg_of_nonpos positive.le down
    omega

theorem divides_iff (src : Source) (scale : Int32) :
    scale ≠ 0 ∧ 1 ≤ src.width / scale ∧ 1 ≤ src.height / scale ↔ Fits scale src := by
  rw [one_le_div_iff src.wide, one_le_div_iff src.high, Fits]
  constructor
  · rintro ⟨_, ⟨low, wide⟩, -, high⟩
    exact ⟨low, wide, high⟩
  · rintro ⟨low, wide, high⟩
    refine ⟨?_, ⟨low, wide⟩, low, high⟩
    rintro rfl
    exact absurd low (by decide)

namespace StreamModule

variable {s : StreamModule P}

theorem divides_allocates {src : Source} (allocates : s.allocates src.toIplImage = true) :
    s.Divides (some src) ↔ Fits s.scale.value.asInteger src := by
  rw [← divides_iff]
  simp [Divides, allocates]

/-- An image that fits gets a buffer. -/
theorem notifyData_allocates {src : Source} (allocates : s.allocates src.toIplImage = true) (fits : Fits s.scale.value.asInteger src) :
    notifyData cv s (some src) = some { s with outputBuffer := some (s.scaled src.toIplImage) } := by
  obtain ⟨divisor, wide, high⟩ := (divides_iff src _).mpr fits
  have one : (0 : Int32) < 1 := by decide
  have created : cv.cvCreateImage (s.scaled src.toIplImage) = some (s.scaled src.toIplImage) :=
    cv.creates (s.scaled src.toIplImage) (Int32.lt_of_lt_of_le one wide) (Int32.lt_of_lt_of_le one high)
  unfold scaled at *
  unfold notifyData
  simp only [allocates, if_true, quotient_eq src.wide divisor, quotient_eq src.high divisor, Option.bind_eq_bind, Option.bind_some]
  rw [created, Option.bind_some]

theorem notifyData_keeps {src : Source} (keeps : s.allocates src.toIplImage = false) : notifyData cv s (some src) = some s := by
  simp [notifyData, keeps]

theorem notifyData_zero {src : Source} (allocates : s.allocates src.toIplImage = true) (zero : s.scale.value.asInteger = 0) :
    notifyData cv s (some src) = none := by
  simp [notifyData, allocates, zero, quotient]

/-! ### A run -/

theorem allowed_allocates {src : Source} (allocates : s.allocates src.toIplImage = true) (rest : List (Option Source)) :
    Machine.Allowed (notifyData cv) Divides s (some src :: rest) ↔
      Fits s.scale.value.asInteger src ∧
        Machine.Allowed (notifyData cv) Divides { s with outputBuffer := some (s.scaled src.toIplImage) } rest := by
  rw [Machine.Allowed, divides_allocates allocates]
  refine and_congr_right fun fits => ?_
  rw [notifyData_allocates allocates fits]
  simp

/-- After an image that fits and has the channels of the buffer. -/
theorem allowed_iff {buffer : IplImage} {last : Source} (holds : s.outputBuffer = some buffer) (same : buffer.nChannels = last.nChannels)
    (fits : Fits s.scale.value.asInteger last) (images : List (Option Source)) :
    Machine.Allowed (notifyData cv) Divides s images ↔
      ∀ src ∈ images.reduceOption.destutter' OtherChannels last, Fits s.scale.value.asInteger src := by
  induction images generalizing s buffer last with
  | nil => simp [Machine.Allowed, fits]
  | cons data rest ih =>
    cases data with
    | none =>
      rw [List.reduceOption_cons_of_none, ← ih holds same fits]
      simp [Machine.Allowed, notifyData, Divides]
    | some src =>
      rw [List.reduceOption_cons_of_some]
      by_cases other : OtherChannels last src
      · have allocates : s.allocates src.toIplImage = true := by
          simpa [StreamModule.allocates, holds, same, OtherChannels] using other
        have made (now : Fits s.scale.value.asInteger src) :=
          ih (s := { s with outputBuffer := some (s.scaled src.toIplImage) }) rfl rfl now
        rw [List.destutter'_cons_pos _ other, List.forall_mem_cons, and_iff_right fits, allowed_allocates allocates]
        constructor
        · rintro ⟨now, later⟩
          exact (made now).mp later
        · intro all
          have now := all src (List.mem_destutter' _ _ _)
          exact ⟨now, (made now).mpr all⟩
      · have keeps : s.allocates src.toIplImage = false := by
          simpa [StreamModule.allocates, holds, same, OtherChannels] using other
        rw [List.destutter'_cons_neg _ other, ← ih holds same fits, Machine.Allowed, notifyData_keeps keeps]
        simp [Divides, keeps]

/-- A new module. -/
theorem allowed_new_iff (new : s.outputBuffer = none) (images : List (Option Source)) :
    Machine.Allowed (notifyData cv) Divides s images ↔ ∀ src ∈ needing images, Fits s.scale.value.asInteger src := by
  induction images with
  | nil => simp [Machine.Allowed, needing]
  | cons data rest ih =>
    cases data with
    | none =>
      rw [needing, List.reduceOption_cons_of_none, ← needing, ← ih]
      simp [Machine.Allowed, notifyData, Divides]
    | some src =>
      have allocates : s.allocates src.toIplImage = true := by
        rw [StreamModule.allocates, new]
      have made (now : Fits s.scale.value.asInteger src) :
          Machine.Allowed (notifyData cv) Divides { s with outputBuffer := some (s.scaled src.toIplImage) } rest ↔
            ∀ later ∈ rest.reduceOption.destutter' OtherChannels src, Fits s.scale.value.asInteger later :=
        allowed_iff (s := { s with outputBuffer := some (s.scaled src.toIplImage) }) rfl rfl now rest
      rw [needing, List.reduceOption_cons_of_some, List.destutter_cons', allowed_allocates allocates]
      constructor
      · rintro ⟨now, later⟩
        exact (made now).mp later
      · intro all
        have now := all src (List.mem_destutter' _ _ _)
        exact ⟨now, (made now).mpr all⟩

/-- A scale of zero lets no image pass. -/
theorem attempt_zero (new : s.outputBuffer = none) (zero : s.scale.value.asInteger = 0) (images : List (Option Source)) :
    (Machine.attempt (notifyData cv) s images).isSome ↔ ∀ data ∈ images, data = none := by
  induction images with
  | nil => simp [Machine.attempt]
  | cons data rest ih =>
    rw [List.forall_mem_cons, ← ih, Machine.attempt]
    cases data with
    | none => simp [notifyData]
    | some src =>
      have allocates : s.allocates src.toIplImage = true := by
        rw [StreamModule.allocates, new]
      rw [notifyData_zero allocates zero]
      simp

end StreamModule

/-- The stream of a request divides as it should exactly for the images that are at least as large as the scale. -/
theorem stream_divides_iff {w : Net (Config P)} {uri : Option Str} {state : ChunkReqState P} (opened : webPipelineStream w uri = .ok state)
    (images : List (Option Source)) :
    Machine.Allowed (StreamModule.notifyData cv) StreamModule.Divides state.stream images ↔
      ∀ src ∈ needing images, Fits (requestedScale uri) src := by
  obtain ⟨new, scale⟩ := webPipelineStream_ok opened
  rw [StreamModule.allowed_new_iff new, scale]

/-- A text that is no number. -/
example : requestedScale (some "/pipeline/stream?objectname=Image1&scale=full".toList) = 0 := by decide +kernel

/-- An image module, its frame, and a library that refuses negative sizes. -/
def oneImage : App Platform.whole := App.step (App.boot Net.empty ⟨1, 0⟩ 5 false) (.create (some "Image".toList))

def frame : Source where
  width := 640
  height := 480
  depth := 8
  nChannels := 3
  wide := by decide
  high := by decide

def cxcore : Allocator where
  cvCreateImage image := if image.width < 0 ∨ image.height < 0 then none else some image
  creates _ wide high := if_neg fun negative => negative.elim (Int32.lt_asymm wide) (Int32.lt_asymm high)

def halfSize : Str := "/pipeline/stream?objectname=Image1&scale=2".toList

def zeroSize : Str := "/pipeline/stream?objectname=Image1&scale=0".toList

theorem opens (uri : Str) (accepted : (webPipelineStream oneImage.net (some uri)).isOk = true) :
    ∃ state, webPipelineStream oneImage.net (some uri) = .ok state := by
  cases result : webPipelineStream oneImage.net (some uri) with
  | ok state => exact ⟨state, rfl⟩
  | error text =>
    rw [result] at accepted
    cases accepted

theorem half_size_divides :
    ∃ state, webPipelineStream oneImage.net (some halfSize) = .ok state ∧
      Machine.Allowed (StreamModule.notifyData cxcore) StreamModule.Divides state.stream [none, some frame, some frame] := by
  obtain ⟨state, opened⟩ := opens halfSize (by decide +kernel)
  refine ⟨state, opened, (stream_divides_iff opened _).mpr ?_⟩
  have needs : needing [none, some frame, some frame] = [frame] := by rfl
  rw [needs, List.forall_mem_singleton]
  unfold Fits
  decide +kernel

/-- The first image of a stream with a scale of zero. -/
theorem zero_scale_traps :
    ∃ state, webPipelineStream oneImage.net (some zeroSize) = .ok state ∧
      ¬ Machine.Allowed (StreamModule.notifyData cxcore) StreamModule.Divides state.stream [some frame] ∧
      state.stream.notifyData cxcore (some frame) = none := by
  obtain ⟨state, opened⟩ := opens zeroSize (by decide +kernel)
  obtain ⟨new, scale⟩ := webPipelineStream_ok opened
  have zero : requestedScale (some zeroSize) = 0 := by decide +kernel
  rw [zero] at scale
  have allocates : state.stream.allocates frame.toIplImage = true := by
    rw [StreamModule.allocates, new]
  refine ⟨state, opened, fun allowed => ?_, StreamModule.notifyData_zero allocates scale⟩
  exact (allowed.1 frame rfl allocates).1 scale

end Movid.Server
