import Mathlib.Logic.Function.Basic
import Movid.Utils

/-!
# Modules, data streams and their connections

A connection is kept twice: an input slot of a module points to a stream, and the stream
lists the module among its observers. Modules and streams are named by references, since
the program holds both by pointer.
-/

namespace Movid

abbrev ModuleRef := Nat

/-- A stream is named by the module that owns it and the index of the output it stands on.
The stream that `otStreamModule` allocates for itself has index 0 there, although the
module declares no output. -/
structure StreamRef where
  owner : ModuleRef
  idx : Nat
  deriving DecidableEq, Repr

/-- One entry of `input_map` with its `moDataStreamInfo`. -/
structure InputPort where
  type : Str
  stream : Option StreamRef
  deriving DecidableEq

/-- `α` is what the connection code never looks at. Inputs and outputs are declared with
consecutive indices from 0 on; an output is known by the format of its stream. -/
structure Module (α : Type) where
  inputs : List InputPort
  outputs : List Str
  isInternal : Bool
  isError : Bool
  errorMsg : Str
  state : α

/-- The live modules, the observers of each stream, and the modules of the pipeline in order. -/
structure Net (α : Type) where
  modules : ModuleRef → Option (Module α)
  observers : StreamRef → List ModuleRef
  elements : List ModuleRef
  next : ModuleRef

variable {α : Type}

/-- `moDataStreamInfo::isStreamValid` for a stream of the given format. -/
def InputPort.isStreamValid (port : InputPort) (format : Str) : Bool :=
  port.type == "*".toList || Utils.inList format port.type [','] == some true

namespace Module

def getInputCount (m : Module α) : Nat := m.inputs.length

def getOutputCount (m : Module α) : Nat := m.outputs.length

/-- The lookup in `input_map`: an index that was never declared is not found. -/
def inputPort (m : Module α) (n : Int) : Option InputPort :=
  if 0 ≤ n then m.inputs[n.toNat]? else none

def getInput (m : Module α) (n : Int) : Option StreamRef := (m.inputPort n).bind (·.stream)

/-- The first input that holds the stream, or -1. -/
def getInputIndex (m : Module α) (s : StreamRef) : Int :=
  match m.inputs.findIdx? (·.stream == some s) with
  | some i => i
  | none => -1

def setError (msg : Str) (m : Module α) : Module α := { m with isError := true, errorMsg := msg }

def setSlot (n : Nat) (s : Option StreamRef) (m : Module α) : Module α :=
  { m with inputs := m.inputs.modify n fun port => { port with stream := s } }

end Module

namespace Net

def updateModule (w : Net α) (r : ModuleRef) (f : Module α → Module α) : Net α :=
  { w with modules := Function.update w.modules r ((w.modules r).map f) }

def setError (w : Net α) (r : ModuleRef) (msg : Str) : Net α := w.updateModule r (.setError msg)

def setSlot (w : Net α) (r : ModuleRef) (n : Nat) (s : Option StreamRef) : Net α :=
  w.updateModule r (.setSlot n s)

def addObserver (w : Net α) (s : StreamRef) (r : ModuleRef) : Net α :=
  { w with observers := Function.update w.observers s (w.observers s ++ [r]) }

/-- Only the first occurrence goes. -/
def removeObserver (w : Net α) (s : StreamRef) (r : ModuleRef) : Net α :=
  { w with observers := Function.update w.observers s ((w.observers s).erase r) }

def getOutput (w : Net α) (r : ModuleRef) (n : Int) : Option StreamRef :=
  match w.modules r with
  | some m => if 0 ≤ n ∧ n.toNat < m.outputs.length then some ⟨r, n.toNat⟩ else none
  | none => none

def getFormat (w : Net α) (s : StreamRef) : Str :=
  ((w.modules s.owner).bind (·.outputs[s.idx]?)).getD []

/-- The text of the error that `setInput` raises for a stream of the wrong format. -/
def rejected (n : Int) (type format : Str) : Str :=
  "Input ".toList ++ Text.showInt n ++ " accepts <".toList ++ type ++ "> but got <".toList ++
    format ++ ">".toList

/-- What `setInput` does first with the stream that the slot holds. -/
def detach (w : Net α) (old : Option StreamRef) (r : ModuleRef) : Net α :=
  match old with
  | some s => w.removeObserver s r
  | none => w

/-- `moModule::setInput`. The storage of a declared input is never NULL, so the branch for
an invalid mapping is not there. -/
def setInput (w : Net α) (r : ModuleRef) (stream : Option StreamRef) (n : Int) : Net α :=
  match w.modules r with
  | none => w
  | some m =>
    match m.inputPort n with
    | none => w.setError r "Invalid input index".toList
    | some port =>
      let w := w.detach port.stream r
      match stream with
      | none => w.setSlot r n.toNat none
      | some s =>
        if port.isStreamValid (w.getFormat s) then
          (w.setSlot r n.toNat (some s)).addObserver s r
        else
          (w.setSlot r n.toNat none).setError r (rejected n port.type (w.getFormat s))

/-- The first observer of `s` that still has an input on `s`, with that input. -/
def firstObserving (w : Net α) (s : StreamRef) : Option (ModuleRef × Nat) :=
  (w.observers s).findSome? fun r =>
    (w.modules r).bind fun m => (m.inputs.findIdx? (·.stream == some s)).map fun i => (r, i)

/-- The `goto restartremove` loop. Every round takes one entry off the observers of `s`,
so their number is enough fuel. -/
def removeObserversLoop (s : StreamRef) : Nat → Net α → Net α
  | 0, w => w
  | fuel + 1, w =>
    match w.firstObserving s with
    | none => w
    | some (r, i) => removeObserversLoop s fuel (w.setInput r none i)

def removeObservers (w : Net α) (s : StreamRef) : Net α :=
  let w := removeObserversLoop s (w.observers s).length w
  { w with observers := Function.update w.observers s [] }

def addElement (w : Net α) (r : ModuleRef) : Net α := { w with elements := w.elements ++ [r] }

def removeElement (w : Net α) (r : ModuleRef) : Net α := { w with elements := w.elements.erase r }

/-- `delete module`. No destructor touches the inputs or the observers. -/
def delete (w : Net α) (r : ModuleRef) : Net α :=
  { w with modules := Function.update w.modules r none }

def clear (w : Net α) : Net α :=
  { w.elements.foldl delete w with elements := [] }

end Net

end Movid
