import Movid.Graph.Net
import Movid.Lib.Machine

/-!
# What requests do to the connections

The handlers of `movid.cpp` that create, connect and delete modules, as steps on a `Net`.
The modules behind open `/pipeline/stream` replies are live but not elements of the pipeline.
-/

namespace Movid

variable {α : Type}

/-- What a constructor declares: the types of the inputs and the formats of the outputs. -/
structure ModuleSpec (α : Type) where
  inputs : List Str
  outputs : List Str
  state : α

/-- Every constructor sets its inputs to NULL. -/
def ModuleSpec.build (spec : ModuleSpec α) : Module α where
  inputs := spec.inputs.map fun type => { type, stream := none }
  outputs := spec.outputs
  isInternal := false
  isError := false
  errorMsg := []
  state := spec.state

/-- The constructor of `otStreamModule`: its input starts on a stream of its own. -/
def streamModule (self : ModuleRef) (state : α) : Module α where
  inputs := [{ type := "IplImage,IplImage8".toList, stream := some ⟨self, 0⟩ }]
  outputs := []
  isInternal := true
  isError := false
  errorMsg := []
  state := state

namespace Net

def empty : Net α where
  modules := fun _ => none
  observers := fun _ => []
  elements := []
  next := 0

/-- `new`: the module gets a reference that was never used. -/
def allocate (w : Net α) (m : Module α) : Net α :=
  { w with modules := Function.update w.modules w.next (some m), next := w.next + 1 }

def webPipelineCreate (w : Net α) (spec : ModuleSpec α) : Net α :=
  (w.allocate spec.build).addElement w.next

/-- `web_pipeline_stream`, from the checks of the module and the index on. -/
def webPipelineStream (w : Net α) (r : ModuleRef) (idx : Int) (state : α) : Net α :=
  if r ∈ w.elements then
    match w.getOutput r idx with
    | none => w
    | some s => (w.allocate (streamModule w.next state)).setInput w.next (some s) 0
  else w

/-- `web_pipeline_stream_trickle` once the peer has closed the connection. The modules behind
open streams are the live ones outside the pipeline. -/
def webPipelineStreamClose (w : Net α) (r : ModuleRef) : Net α :=
  if r ∈ w.elements then w else (w.setInput r none 0).delete r

def disconnectInputs (r : ModuleRef) (inputs : List InputPort) (w : Net α) : Net α :=
  inputs.foldl (fun w port =>
    match port.stream with
    | none => w
    | some s => w.removeObserver s r) w

def disconnectOutputs (r : ModuleRef) (count : Nat) (w : Net α) : Net α :=
  (List.range count).foldl (fun w i => w.removeObservers ⟨r, i⟩) w

def webPipelineRemove (w : Net α) (r : ModuleRef) : Net α :=
  match w.modules r with
  | none => w
  | some m =>
    if r ∈ w.elements then
      let w := disconnectInputs r m.inputs w
      let w := disconnectOutputs r m.getOutputCount w
      (w.removeElement r).delete r
    else w

/-- A request of `/pipeline/create`, `/pipeline/connect`, `/pipeline/stream` or
`/pipeline/remove`, or a direct call of `setInput`. The source of a connection is an output
of a module, or NULL. -/
inductive Event (α : Type) where
  | create (spec : ModuleSpec α)
  | setInput (r : ModuleRef) (source : Option (ModuleRef × Int)) (n : Int)
  | openStream (r : ModuleRef) (idx : Int) (state : α)
  | closeStream (r : ModuleRef)
  | remove (r : ModuleRef)

def step (w : Net α) : Event α → Net α
  | .create spec => w.webPipelineCreate spec
  | .setInput r source n => w.setInput r (source.bind fun (k, i) => w.getOutput k i) n
  | .openStream r idx state => w.webPipelineStream r idx state
  | .closeStream r => w.webPipelineStreamClose r
  | .remove r => w.webPipelineRemove r

/-- The same events, and the `clear` that `web_pipeline_slot_load` starts with. The modules
and connections of the slot follow as events of their own. -/
inductive SlotEvent (α : Type) where
  | request (event : Event α)
  | clear

def slotStep (w : Net α) : SlotEvent α → Net α
  | .request event => w.step event
  | .clear => w.clear

end Net

end Movid
