import Movid.Graph.Consistency

/-!
# Polling the pipeline

The main loop polls the modules of the pipeline in order and answers requests between two
passes. A push on a stream calls `notifyData` of its observers at once, which mostly sets
`need_update`; the update itself runs when the module is polled next. No module has
`use_thread` set.
-/

namespace Movid.Schedule

/-- The modules, as far as the scheduler can tell them apart. -/
inductive Kind where
  | camera
  | video
  | image
  | imageFilter
  | mask
  | combine
  | binaryMask
  | blobTracker
  | calibration
  | imageDisplay
  | justify
  | dump
  | tuio
  | tuio2
  deriving DecidableEq

/-- What `notifyData` does besides storing something in the module. -/
inductive NotifyData where
  | always
  | nonNull
  | relay
  | never
  deriving DecidableEq

namespace Kind

def inputCount : Kind → Nat
  | camera | video | image => 0
  | combine | binaryMask => 2
  | imageFilter | mask | blobTracker | calibration | imageDisplay | justify | dump | tuio | tuio2 => 1

/-- The `poll` of the sources that never wait calls `notifyUpdate` first. -/
def polling : Kind → Bool
  | camera | video => true
  | _ => false

def notifyData : Kind → NotifyData
  | camera | video | image => .never
  | imageFilter | mask | blobTracker | calibration | imageDisplay => .always
  | combine | binaryMask => .nonNull
  | justify => .relay
  | dump | tuio | tuio2 => .never

/-- A module of this kind calls `notifyUpdate` when the value arrives. -/
def notifies {V : Type} (kind : Kind) (value : Option V) : Prop :=
  kind.notifyData = .always ∨ (kind.notifyData = .nonNull ∧ value.isSome = true)

/-- The kinds whose update reads its input without a check. -/
def needsInput : Kind → Bool
  | blobTracker | calibration | imageDisplay => true
  | _ => false

/-- The `update` of these modules is empty. -/
def idle : Kind → Bool
  | justify | dump | tuio | tuio2 => true
  | _ => false

end Kind

/-- The part of a module that the scheduler reads and writes; `L` is the rest. -/
structure Job (L : Type) where
  kind : Kind
  needUpdate : Bool
  isStarted : Bool
  rest : L

/-- What an update does, in order. A NULL pointer is `none`. -/
inductive Action (V : Type) where
  | push (idx : Nat) (value : Option V)
  | stop

/-- The value that an action pushes on the output. -/
def Action.on {V : Type} (idx : Nat) : Action V → Option (Option V)
  | .push i value => if i = idx then some value else none
  | .stop => none

/-- The code of the modules: what an update makes of the data on its inputs, what
`notifyData` keeps of a stream, and what `Justify` pushes on. -/
structure Behaviour (V L : Type) where
  update : Kind → L → List (Option V) → L × List (Action V)
  receive : Kind → L → Option V → L
  justify : L → Option V

/-- The graph, the data of each stream, and which streams were ever pushed on. -/
structure World (V L : Type) where
  net : Net (Job L)
  data : StreamRef → Option V
  pushed : StreamRef → Bool

namespace World

variable {V L : Type}

def empty : World V L := { net := .empty, data := fun _ => none, pushed := fun _ => false }

def updateJob (w : World V L) (r : ModuleRef) (f : Job L → Job L) : World V L :=
  { w with net := w.net.updateModule r fun m => { m with state := f m.state } }

/-- `notifyUpdate` starts a module that is not started yet. -/
def notifyUpdate (w : World V L) (r : ModuleRef) : World V L :=
  w.updateJob r fun job => { job with isStarted := true, needUpdate := true }

def stop (w : World V L) (r : ModuleRef) : World V L :=
  w.updateJob r fun job => { job with isStarted := false, needUpdate := false }

def store (w : World V L) (s : StreamRef) (value : Option V) : World V L :=
  { w with data := Function.update w.data s value, pushed := Function.update w.pushed s true }

def job (w : World V L) (r : ModuleRef) : Option (Job L) := (w.net.modules r).map (·.state)

def inputData (w : World V L) (r : ModuleRef) : List (Option V) :=
  ((w.net.modules r).map fun m => m.inputs.map fun port => port.stream.bind w.data).getD []

variable (b : Behaviour V L)

/-- `notifyData` of an observer; `push` is the call that `Justify` makes. -/
def notifyData (push : World V L → StreamRef → Option V → Option (World V L)) (s : StreamRef) (w : World V L)
    (r : ModuleRef) : Option (World V L) :=
  (w.job r).bind fun job =>
    let rest := b.receive job.kind job.rest (w.data s)
    let w := w.updateJob r fun job => { job with rest }
    match job.kind.notifyData with
    | .always => some (w.notifyUpdate r)
    | .nonNull => some (if (w.data s).isSome then w.notifyUpdate r else w)
    | .relay => push w ⟨r, 0⟩ (b.justify rest)
    | .never => some w

/-- `moDataStream::push`. The fuel bounds how deep pushes nest. -/
def push : Nat → World V L → StreamRef → Option V → Option (World V L)
  | 0, _, _, _ => none
  | fuel + 1, w, s, value =>
    (w.net.observers s).foldlM (notifyData b (push fuel) s) (w.store s value)

def perform (fuel : Nat) (r : ModuleRef) (w : World V L) : Action V → Option (World V L)
  | .push idx value => push b fuel w ⟨r, idx⟩ value
  | .stop => some (w.stop r)

def actions (w : World V L) (r : ModuleRef) : List (Action V) :=
  match w.job r with
  | none => []
  | some job => if job.kind.idle then [] else (b.update job.kind job.rest (w.inputData r)).2

/-- `needUpdate` clears the flag; the update leaves something new in the module. -/
def consume (w : World V L) (r : ModuleRef) (rest : L) : World V L :=
  w.updateJob r fun job => { job with needUpdate := false, rest }

/-- The update itself, once `needUpdate` has cleared the flag. A camera that got an image asks
to be updated again. -/
def update (fuel : Nat) (w : World V L) (r : ModuleRef) : Option (World V L) :=
  (w.job r).bind fun job =>
    let acts := actions b w r
    let rest := if job.kind.idle then job.rest else (b.update job.kind job.rest (w.inputData r)).1
    (acts.foldlM (perform b fuel r) (w.consume r rest)).map fun w =>
      if job.kind = .camera ∧ acts ≠ [] then w.notifyUpdate r else w

def needUpdate (w : World V L) (r : ModuleRef) : Bool := ((w.job r).map (·.needUpdate)).getD false

/-- The `poll` of `moCameraModule` and `moVideoModule`, up to the call of `moModule::poll`. -/
def prepare (w : World V L) (r : ModuleRef) : World V L :=
  if ((w.job r).map (·.kind.polling)).getD false then w.notifyUpdate r else w

/-- `moModule::poll`. -/
def poll (fuel : Nat) (w : World V L) (r : ModuleRef) : Option (World V L) :=
  let w := w.prepare r
  if w.needUpdate r then w.update b fuel r else some w

/-- `moPipeline::poll`. -/
def pass (fuel : Nat) (w : World V L) : Option (World V L) := w.net.elements.foldlM (poll b fuel) w

end World

/-- What a constructor declares. -/
structure Declaration (L : Type) where
  kind : Kind
  inputs : List Str
  outputs : List Str
  rest : L
  arity : inputs.length = kind.inputCount

def Declaration.spec {L : Type} (d : Declaration L) : ModuleSpec (Job L) where
  inputs := d.inputs
  outputs := d.outputs
  state := { kind := d.kind, needUpdate := false, isStarted := false, rest := d.rest }

/-- The requests between two passes, and the passes. `reload` is a new `filename` that an
Image or Mask module can load. -/
inductive Event (L : Type) where
  | create (d : Declaration L)
  | connect (r : ModuleRef) (source : Option (ModuleRef × Int)) (n : Int)
  | reload (r : ModuleRef)
  | pass

namespace World

variable {V L : Type} (b : Behaviour V L)

def reload (w : World V L) (r : ModuleRef) : World V L :=
  match w.job r with
  | none => w
  | some job => if job.kind = .image ∨ job.kind = .mask then w.notifyUpdate r else w

def step (fuel : Nat) (w : World V L) : Event L → Option (World V L)
  | .create d => some { w with net := w.net.step (.create d.spec) }
  | .connect r source n => some { w with net := w.net.step (.setInput r source n) }
  | .reload r => some (w.reload r)
  | .pass => w.pass b fuel

end World

end Movid.Schedule
