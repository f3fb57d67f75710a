import Movid.Graph.Typing
import Movid.Preset.Factory

/-!
# The image modules

What the modules do with images, as far as the number of channels goes: which buffers they
allocate and on which of their outputs they push. An image is known by its `nChannels`.
-/

namespace Movid.Image

open Preset (ModuleType)

abbrev Channels := Nat

/-- What a module keeps: `output_buffer`, whether `output_dispatcher` is the output for one
channel, and the mask of HuObjectFinder. -/
structure Buffers where
  type : ModuleType
  outputBuffer : Option Channels
  dispatches8 : Bool
  mask : Option Channels

def Buffers.new (type : ModuleType) : Buffers := { type, outputBuffer := none, dispatches8 := false, mask := none }

end Movid.Image

namespace Movid.Preset.ModuleType

/-- The subclasses of `moImageFilterModule8`. -/
def filter8 : ModuleType → Bool
  | backgroundSubtract | equalizeHist | invert | smooth => true
  | _ => false

/-- The subclasses of `moImageFilterModule`. -/
def filter : ModuleType → Bool
  | amplify | backgroundSubtract | blobFinder | canny | dilate | distanceTransform | equalizeHist | erode |
    fiducialFinder | fingerTipFinder | grayScale | highpass | hsv | huObjectFinder | invert | mask | mirrorImage |
    peakFinder | roi | smooth | threshold | yCrCbThreshold => true
  | _ => false

/-- The channels of the buffer that `allocateBuffers` creates for an image. -/
def bufferChannels : ModuleType → Image.Channels → Image.Channels
  | distanceTransform, _ | grayScale, _ | hsv, _ | yCrCbThreshold, _ => 1
  | fiducialFinder, _ => 3
  | _, src => src

end Movid.Preset.ModuleType

namespace Movid.Image

open Preset (ModuleType)

namespace Buffers

def needBufferAllocation (b : Buffers) (src : Option Channels) : Bool :=
  match b.outputBuffer with
  | none => true
  | some c => b.type.filter8 && src.any (c ≠ ·)

/-- FiducialFinder reads the size of the image without a check for NULL. -/
def allocateBuffers (b : Buffers) : Option Channels → Option Buffers
  | none => if b.type = .fiducialFinder then none else some b
  | some src =>
    some { b with
      outputBuffer := some (b.type.bufferChannels src)
      dispatches8 := if b.type.filter8 then src = 1 else b.dispatches8 }

/-- `notifyData`, when the stream holds `src`. -/
def notifyData (b : Buffers) (src : Option Channels) : Option Buffers :=
  if b.type.filter then
    if b.needBufferAllocation src then b.allocateBuffers src else some b
  else if b.type = .combine ∨ b.type = .binaryMask then
    some { b with outputBuffer := b.outputBuffer.or src }
  else some b

/-- Only `moImageFilterModule::stop` releases the buffer. -/
def stop (b : Buffers) : Buffers := if b.type.filter then { b with outputBuffer := none } else b

end Buffers

/-- What the outside world does in an update: the image that `cvQueryFrame` or `cvLoadImage` gave, and how
many contours HuObjectFinder recognizes. -/
structure Surroundings where
  query : Option Channels
  found : Nat

/-- What an update leaves: the buffers, the pushes in order, and whether the branch for an image with
too many channels was taken. -/
structure Outcome where
  buffers : Buffers
  pushes : List (Nat × Option Channels)
  misfit : Bool

namespace Buffers

/-- `applyFilter` for a copy of the image `src`; `drawMask` says that the mask output has observers. -/
def applyFilter (b : Buffers) (drawMask : Bool) (found : Nat) (src : Channels) : Outcome :=
  if b.type = .threshold ∨ b.type = .fiducialFinder then
    if src ≠ 1 then { buffers := b.stop, pushes := [], misfit := true } else { buffers := b, pushes := [], misfit := false }
  else if b.type = .huObjectFinder ∧ drawMask then
    let mask := b.mask.getD src
    { buffers := { b with mask := some mask }, pushes := List.replicate found (2, some mask), misfit := false }
  else { buffers := b, pushes := [], misfit := false }

/-- `moImageFilterModule::update`. -/
def filterUpdate (b : Buffers) (drawMask : Bool) (found : Nat) : Option Channels → Outcome
  | none => { buffers := b, pushes := [], misfit := false }
  | some src =>
    let applied := b.applyFilter drawMask found src
    let out := applied.buffers
    { applied with pushes := applied.pushes ++ [(if out.dispatches8 then 1 else 0, out.outputBuffer)] }

/-- `update` of Combine and BinaryMask; the inputs that are connected are `some`. Combine does not need
its second input. -/
def mixUpdate (b : Buffers) (first second : Option (Option Channels)) : Outcome :=
  let ready := b.outputBuffer.isSome && (first.any (·.isSome)) &&
    (second.any (·.isSome) || (b.type = .combine && second.isNone))
  { buffers := b, pushes := if ready then [(0, b.outputBuffer)] else [], misfit := false }

/-- A camera image has one or three channels, or the program ends. -/
def cameraUpdate (b : Buffers) : Option Channels → Option Outcome
  | none => some { buffers := b, pushes := [], misfit := false }
  | some c =>
    if c = 3 then some { buffers := b, pushes := [(0, some c)], misfit := false }
    else if c = 1 then some { buffers := b, pushes := [(1, some c)], misfit := false }
    else none

/-- `update`. The inputs are NULL, or hold an image or not. The other modules push no images. -/
def update (b : Buffers) (around : Surroundings) (drawMask : Bool) (first second : Option (Option Channels)) :
    Option Outcome :=
  if b.type.filter then some (b.filterUpdate drawMask around.found first.join)
  else if b.type = .combine ∨ b.type = .binaryMask then some (b.mixUpdate first second)
  else if b.type = .camera then b.cameraUpdate around.query
  else if b.type = .video then some { buffers := b, pushes := [(0, around.query)], misfit := false }
  else if b.type = .image then
    some { buffers := b, pushes := around.query.toList.map fun c => (0, some c), misfit := false }
  else some { buffers := b, pushes := [], misfit := false }

end Buffers

/-- The graph, the image on each stream, what was pushed so far, and whether one of the branches for too
many channels was ever taken. -/
structure Images where
  net : Net Buffers
  data : StreamRef → Option Channels
  log : List (StreamRef × Option Channels)
  misfit : Bool

/-- Updates and calls of `notifyData` come in any order, from the main thread or from workers. -/
inductive Event where
  | create (type : ModuleType)
  | setInput (r : ModuleRef) (source : Option (ModuleRef × Int)) (n : Int)
  | notifyData (r : ModuleRef) (n : Nat)
  | update (r : ModuleRef) (around : Surroundings)
  | stop (r : ModuleRef)

namespace Images

def initial : Images := { net := .empty, data := fun _ => none, log := [], misfit := false }

def input (w : Images) (m : Module Buffers) (n : Nat) : Option (Option Channels) :=
  (m.inputs[n]?.bind (·.stream)).map w.data

def setState (w : Images) (r : ModuleRef) (b : Buffers) : Images :=
  { w with net := w.net.updateModule r fun m => { m with state := b } }

def push (w : Images) (r : ModuleRef) (pushes : List (Nat × Option Channels)) : Images :=
  pushes.foldl (fun w p => { w with data := Function.update w.data ⟨r, p.1⟩ p.2, log := w.log ++ [(⟨r, p.1⟩, p.2)] }) w

/-- `none` ends the program, or is a step that cannot happen. -/
def step (w : Images) : Event → Option Images
  | .create type =>
    some { w with net := w.net.step (.create { inputs := type.inputs, outputs := type.outputs, state := .new type }) }
  | .setInput r source n => some { w with net := w.net.step (.setInput r source n) }
  | .notifyData r n => do
    let m ← w.net.modules r
    let src ← w.input m n
    let b ← m.state.notifyData src
    some (w.setState r b)
  | .update r around => do
    let m ← w.net.modules r
    let out ← m.state.update around (!(w.net.observers ⟨r, 2⟩).isEmpty) (w.input m 0) (w.input m 1)
    let w := (w.setState r out.buffers).push r out.pushes
    some { w with misfit := w.misfit || out.misfit }
  | .stop r => do
    let m ← w.net.modules r
    some (w.setState r m.state.stop)

end Images

end Movid.Image
