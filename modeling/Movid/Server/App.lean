import Movid.Preset.Loader
import Movid.Preset.Reload

/-!
# The program behind the web server

The handlers of `movid.cpp` that change the pipeline, and the errors that the main loop reports.
Modules raise errors on their own, in `poll`, in `start` or in a thread.
-/

namespace Movid.Preset

variable {P : Platform}

/-- `moFactory::list` in the order of the map, which is that of the names. -/
def ModuleType.list : List ModuleType :=
  [amplify, backgroundSubtract, binaryMask, blobFinder, calibration, camera, canny, combine, dilate, distanceTransform,
    dump, equalizeHist, erode, fiducialFinder, fingerTipFinder, grayScale, greedyBlobTracker, highpass, hsv,
    huObjectFinder, image, imageDisplay, invert, justify, mask, mirrorImage, munkresBlobTracker, peakFinder, roi, smooth,
    threshold, tuio, tuio2, video, yCrCbThreshold]

/-- `started` is `is_started` of the pipeline. -/
structure App (P : Platform) extends Program P where
  delay : Int32
  started : Bool
  lastInternalError : Str

/-- A request with the fields of its query, or what happens between two requests. For a slot it
says what is in the file, if the file can be opened. -/
inductive Request (P : Platform) where
  | factoryList
  | factoryDescribe (name : Option Str)
  | create (objectname : Option Str)
  | remove (objectname : Option Str)
  | connect (source target outidx inidx : Option Str)
  | set (objectname : Option Str) (names values : List Str)
  | stream (objectname index : Option Str) (config : Config P)
  | streamClose (r : ModuleRef)
  | start
  | stop
  | slotLoad (idx : Option Str) (file : Option Str)
  | moduleError (r : ModuleRef) (msg : Str)
  | report

namespace App

/-- The program in its main loop, with the pipeline of the command line or none. -/
def boot (net : Net (Config P)) (counters : Counters) (delay : Int32) (started : Bool) : App P :=
  { net, counters, delay, started, lastInternalError := [] }

variable (a : App P)

/-! ### Errors -/

/-- `moPipeline::haveError`. -/
def haveError : Bool := a.lastInternalError ≠ [] || a.net.elements.any (Preset.haveError a.net)

/-- `moPipeline::getLastError`. A module takes its error back when it is asked. -/
def getLastError : Str × App P :=
  if a.lastInternalError ≠ [] then (a.lastInternalError, a)
  else
    match a.net.elements.find? (Preset.haveError a.net) with
    | some r => (Preset.getLastError a.net r, { a with net := a.net.clearError r })
    | none => ([], a)

/-- One turn of the loop over the errors. -/
def drain : App P := a.getLastError.2

/-- The errors that wait for a report. -/
def pending : Nat := (if a.lastInternalError ≠ [] then 1 else 0) + a.net.elements.countP (Preset.haveError a.net)

/-! ### Handlers -/

def webFactoryList : App P := { a with counters := ModuleType.list.foldl (fun c t => (t.construct P c).2) a.counters }

def webFactoryDescribe (name : Option Str) : App P :=
  match name.bind ModuleType.ofName with
  | none => a
  | some t => { a with counters := (t.construct P a.counters).2 }

/-- `moPipeline::stop` comes first, and the pipeline is not started again. -/
def webPipelineRemove (objectname : Option Str) : App P :=
  match objectname.bind (getModuleById a.net) with
  | none => a
  | some r => { a with net := a.net.webPipelineRemove r, started := false }

def index (field : Option Str) : Int := ((field.map Text.atoi).getD 0).toInt

def webPipelineConnect (source target outidx inidx : Option Str) : App P :=
  match source, target with
  | some out, some in_ =>
    match getModuleById a.net in_, getModuleById a.net out with
    | none, _ => a
    | some r, found =>
      if out = "NULL".toList then { a with net := a.net.setInput r none (index inidx) }
      else
        match found with
        | none => a
        | some k => { a with net := a.net.setInput r (a.net.getOutput k (index outidx)) (index inidx) }
  | _, _ => a

/-- The stream module has an id of its own. -/
def webPipelineStream (objectname idx : Option Str) (config : Config P) : App P :=
  match objectname.bind (getModuleById a.net) with
  | none => a
  | some r =>
    match a.net.getOutput r (index idx) with
    | none => a
    | some _ =>
      { a with
        net := a.net.webPipelineStream r (index idx) config
        counters := (createId "WebStream".toList a.counters).2 }

def slotMax : Int := 10

/-- `moPipeline::parse` for a file that may be missing. The state is the one that is left behind. -/
def parse (file : Option Str) : App P :=
  match file with
  | none => { a with lastInternalError := "unable to open file".toList }
  | some text =>
    match Loader.parse text (Reader.start a.net a.counters a.delay) with
    | .ok _ s | .error _ s => { a with net := s.net, counters := s.counters, delay := s.delay }

/-- `moPipeline::clear` stops the pipeline. -/
def clear : App P := { a with net := a.net.clear, started := false }

def webPipelineSlotLoad (idx file : Option Str) : App P :=
  match idx with
  | none => a
  | some idx =>
    if (Text.atoi idx).toInt < 1 ∨ (Text.atoi idx).toInt > slotMax then a else a.clear.parse file

def step : Request P → App P
  | .factoryList => a.webFactoryList
  | .factoryDescribe name => a.webFactoryDescribe name
  | .create objectname => { a with toProgram := a.toProgram.webPipelineCreate objectname }
  | .remove objectname => a.webPipelineRemove objectname
  | .connect source target outidx inidx => a.webPipelineConnect source target outidx inidx
  | .set objectname names values => { a with toProgram := a.toProgram.webPipelineSet objectname names values }
  | .stream objectname idx config => a.webPipelineStream objectname idx config
  | .streamClose r => { a with net := a.net.webPipelineStreamClose r }
  | .start => { a with started := true }
  | .stop => { a with started := false }
  | .slotLoad idx file => a.webPipelineSlotLoad idx file
  | .moduleError r msg => { a with net := a.net.setError r msg }
  | .report => if a.started then a.drain else a

end App

end Movid.Preset
