import Movid.Image.Filter
import Movid.Lib.Machine

/-!
# The background of BackgroundSubtract

`recapture` says that the next frame becomes the background. It is a property that anyone may set, and the buffer of the background
comes and goes without it.
-/

namespace Movid.Image

/-- `shape` is the size and the depth. -/
structure Picture (Shape Pixels : Type) where
  channels : Channels
  shape : Shape
  pixels : Pixels

/-- An image of `cvCreateImage`, whose pixels nobody wrote yet or somebody did. -/
structure Canvas (Shape Pixels : Type) where
  channels : Channels
  shape : Shape
  pixels : Option Pixels

/-- `cvSub` and `cvAbsDiff`. -/
structure Subtraction (Pixels : Type) where
  sub : Pixels → Pixels → Pixels
  absDiff : Pixels → Pixels → Pixels

/-- `data` is what the input holds. `updates` is not in the source: the frames since `bg_buffer` was allocated, and whether
`recapture` was set for them. -/
structure Background (Shape Pixels : Type) where
  data : Option (Picture Shape Pixels)
  needUpdate : Bool
  isStarted : Bool
  recapture : Bool
  toggle : Bool
  absolute : Bool
  outputBuffer : Option (Canvas Shape Pixels)
  dispatches8 : Bool
  bgBuffer : Option (Canvas Shape Pixels)
  updates : List (Bool × Picture Shape Pixels)

variable {Shape Pixels : Type}

/-- An empty canvas for an image. -/
def Canvas.create (channels : Channels) (shape : Shape) : Canvas Shape Pixels := { channels, shape, pixels := none }

namespace Background

def initial : Background Shape Pixels :=
  { data := none, needUpdate := false, isStarted := false, recapture := true, toggle := false, absolute := false,
    outputBuffer := none, dispatches8 := false, bgBuffer := none, updates := [] }

def needBufferAllocation (s : Background Shape Pixels) : Bool :=
  match s.outputBuffer, s.data with
  | none, _ => true
  | some _, none => false
  | some out, some src => out.channels ≠ src.channels

/-- The three methods of the class and its bases in their order. -/
def allocateBuffers (s : Background Shape Pixels) : Background Shape Pixels :=
  let s := match s.data with
    | none => s
    | some src => { s with outputBuffer := some (.create src.channels src.shape) }
  match s.outputBuffer with
  | none => s
  | some out => { s with dispatches8 := out.channels = 1, bgBuffer := some (.create out.channels out.shape), updates := [] }

def notifyUpdate (s : Background Shape Pixels) : Background Shape Pixels := { s with isStarted := true, needUpdate := true }

def notifyData (s : Background Shape Pixels) : Background Shape Pixels :=
  (if s.needBufferAllocation then s.allocateBuffers else s).notifyUpdate

def start (s : Background Shape Pixels) : Background Shape Pixels := { s with isStarted := true }

def stop (s : Background Shape Pixels) : Background Shape Pixels :=
  { s with needUpdate := false, isStarted := false, outputBuffer := none, bgBuffer := none, recapture := true }

/-- The channels alone. -/
def view (s : Background Shape Pixels) : Buffers :=
  { type := .backgroundSubtract, outputBuffer := s.outputBuffer.map (·.channels), dispatches8 := s.dispatches8, mask := none }

theorem view_needBufferAllocation (s : Background Shape Pixels) :
    s.view.needBufferAllocation (s.data.map (·.channels)) = s.needBufferAllocation := by
  unfold Buffers.needBufferAllocation needBufferAllocation view
  cases s.outputBuffer with
  | none => rfl
  | some out =>
    cases s.data with
    | none => rfl
    | some src => simp [Preset.ModuleType.filter8]

theorem view_notifyData (s : Background Shape Pixels) : s.view.notifyData (s.data.map (·.channels)) = some s.notifyData.view := by
  unfold Buffers.notifyData notifyData
  rw [view_needBufferAllocation, if_pos (show s.view.type.filter = true from rfl)]
  split
  · rename_i need
    cases held : s.data with
    | none =>
      have none : s.outputBuffer = none := by
        cases out : s.outputBuffer with
        | none => rfl
        | some out' => simp [needBufferAllocation, out, held] at need
      simp [Buffers.allocateBuffers, allocateBuffers, held, none, view, notifyUpdate]
    | some src => simp [Buffers.allocateBuffers, allocateBuffers, held, view, notifyUpdate, Canvas.create,
        Preset.ModuleType.bufferChannels, Preset.ModuleType.filter8]
  · rfl

theorem view_stop (s : Background Shape Pixels) : s.stop.view = s.view.stop := rfl

variable [DecidableEq Shape] (ops : Subtraction Pixels)

/-- `applyFilter`. An assertion that fails ends the program, and so does OpenCV for images that do not fit together. -/
def applyFilter (s : Background Shape Pixels) (src : Picture Shape Pixels) : Option (Background Shape Pixels) := do
  let bg ← s.bgBuffer
  let out ← s.outputBuffer
  let seen := { s with updates := s.updates ++ [(s.recapture, src)] }
  guard (bg.channels = src.channels ∧ bg.shape = src.shape)
  if s.recapture then some { seen with bgBuffer := some { bg with pixels := some src.pixels }, recapture := false }
  else
    guard (out.channels = src.channels ∧ out.shape = src.shape)
    let difference := if s.absolute then ops.absDiff src.pixels else ops.sub src.pixels
    some { seen with outputBuffer := some { out with pixels := bg.pixels.map difference }, recapture := s.toggle }

/-- A turn of `poll` or of the worker. -/
def update (s : Background Shape Pixels) : Option (Background Shape Pixels) :=
  if s.needUpdate then
    match s.data with
    | none => some { s with needUpdate := false }
    | some src => { s with needUpdate := false }.applyFilter ops src
  else some s

end Background

/-- A push on the input, or another input, comes before the call of `notifyData` for it, and from another thread an update
may be between them. -/
inductive Background.Event (Shape Pixels : Type) where
  | data (picture : Option (Picture Shape Pixels))
  | notifyData
  | update
  | recapture (value : Bool)
  | toggle (value : Bool)
  | absolute (value : Bool)
  | start
  | stop

namespace Background

section Machine

variable [DecidableEq Shape] (ops : Subtraction Pixels)

def step (s : Background Shape Pixels) : Event Shape Pixels → Option (Background Shape Pixels)
  | .data picture => some { s with data := picture }
  | .notifyData => some s.notifyData
  | .update => s.update ops
  | .recapture value => some { s with recapture := value }
  | .toggle value => some { s with toggle := value }
  | .absolute value => some { s with absolute := value }
  | .start => some s.start
  | .stop => some s.stop

end Machine

/-- An update now takes the branch that subtracts. -/
structure Subtracts (s : Background Shape Pixels) (src : Picture Shape Pixels) : Prop where
  wanted : s.needUpdate = true
  data : s.data = some src
  background : s.bgBuffer.isSome = true
  output : s.outputBuffer.isSome = true
  recapture : s.recapture = false

/-- `bg_buffer` is a copy of a frame that was captured since its allocation, and goes with `src`. -/
def Holds (s : Background Shape Pixels) (src : Picture Shape Pixels) : Prop :=
  ∃ bg frame, s.bgBuffer = some bg ∧ (true, frame) ∈ s.updates ∧ bg.pixels = some frame.pixels ∧
    bg.channels = frame.channels ∧ bg.channels = src.channels

/-- Every update that subtracts has such a background. -/
def Uses (s : Background Shape Pixels) (event : Event Shape Pixels) : Prop :=
  event = .update → ∀ src, s.Subtracts src → s.Holds src

/-- No update that subtracts is the first since the allocation, or sees an image of other channels. -/
def Ready (s : Background Shape Pixels) (event : Event Shape Pixels) : Prop :=
  event = .update → ∀ src, s.Subtracts src → s.updates ≠ [] ∧ s.needBufferAllocation = false

structure Sound (s : Background Shape Pixels) : Prop where
  allocated : s.bgBuffer.map (·.channels) = s.outputBuffer.map (·.channels)
  captured : ∀ bg, s.bgBuffer = some bg → ∀ pixels, bg.pixels = some pixels →
    ∃ frame, (true, frame) ∈ s.updates ∧ pixels = frame.pixels ∧ bg.channels = frame.channels
  filled : ∀ bg, s.bgBuffer = some bg → s.updates ≠ [] → bg.pixels.isSome = true

variable {s t : Background Shape Pixels} {src : Picture Shape Pixels}

theorem Sound.congr (sound : s.Sound) (background : t.bgBuffer = s.bgBuffer) (output : t.outputBuffer = s.outputBuffer)
    (updates : t.updates = s.updates) : t.Sound := by
  constructor
  · rw [background, output]
    exact sound.allocated
  · rw [background, updates]
    exact sound.captured
  · rw [background, updates]
    exact sound.filled

theorem Sound.allocateBuffers (sound : s.Sound) : s.allocateBuffers.Sound := by
  unfold Background.allocateBuffers
  cases s.data with
  | none =>
    dsimp only
    split
    · exact sound
    · rename_i out output
      refine ⟨?_, fun bg same pixels held => ?_, fun bg same filled => absurd rfl filled⟩
      · simp [output, Canvas.create]
      · cases same
        cases held
  | some src =>
    refine ⟨rfl, fun bg same pixels held => ?_, fun bg same filled => absurd rfl filled⟩
    cases same
    cases held

theorem Sound.initial : (Background.initial : Background Shape Pixels).Sound :=
  ⟨rfl, fun _ none => (by cases none), fun _ none => by cases none⟩

theorem Sound.ready_iff (sound : s.Sound) (event : Event Shape Pixels) : s.Ready event ↔ s.Uses event := by
  refine imp_congr_right fun _ => forall_congr' fun src => imp_congr_right fun subtracts => ?_
  obtain ⟨bg, background⟩ := Option.isSome_iff_exists.mp subtracts.background
  obtain ⟨out, output⟩ := Option.isSome_iff_exists.mp subtracts.output
  have same : bg.channels = out.channels := by
    have allocated := sound.allocated
    rw [background, output] at allocated
    exact Option.some.inj allocated
  have need : s.needBufferAllocation = false ↔ bg.channels = src.channels := by
    simp [needBufferAllocation, output, subtracts.data, same]
  rw [need]
  constructor
  · rintro ⟨later, fits⟩
    obtain ⟨pixels, held⟩ := Option.isSome_iff_exists.mp (sound.filled bg background later)
    obtain ⟨frame, member, rfl, channels⟩ := sound.captured bg background pixels held
    exact ⟨bg, frame, background, member, held, channels, fits⟩
  · rintro ⟨bg', frame, background', member, -, -, fits⟩
    obtain rfl := Option.some.inj (background.symm.trans background')
    exact ⟨List.ne_nil_of_mem member, fits⟩

variable [DecidableEq Shape] {ops : Subtraction Pixels}

/-- What the filter can do to an image. -/
theorem applyFilter_cases (done : s.applyFilter ops src = some t) : ∃ bg out, s.bgBuffer = some bg ∧ s.outputBuffer = some out ∧
    bg.channels = src.channels ∧ t.updates = s.updates ++ [(s.recapture, src)] ∧
    (s.recapture = true ∧ t.bgBuffer = some { bg with pixels := some src.pixels } ∧ t.outputBuffer = some out ∨
      s.recapture = false ∧ t.bgBuffer = some bg ∧ ∃ pixels, t.outputBuffer = some { out with pixels }) := by
  obtain ⟨bg, background, done⟩ := Option.bind_eq_some_iff.mp done
  obtain ⟨out, output, done⟩ := Option.bind_eq_some_iff.mp done
  obtain ⟨_, fits, done⟩ := Option.bind_eq_some_iff.mp done
  have fits : bg.channels = src.channels ∧ bg.shape = src.shape := by
    by_contra apart
    rw [guard, if_neg apart] at fits
    cases fits
  refine ⟨bg, out, background, output, fits.1, ?_⟩
  cases found : s.recapture with
  | true =>
    rw [found, if_pos rfl] at done
    cases done
    exact ⟨rfl, Or.inl ⟨rfl, rfl, output⟩⟩
  | false =>
    rw [found, if_neg Bool.false_ne_true] at done
    obtain ⟨_, _, done⟩ := Option.bind_eq_some_iff.mp done
    cases done
    exact ⟨rfl, Or.inr ⟨rfl, background, _, rfl⟩⟩

theorem Sound.applyFilter (sound : s.Sound) (later : s.recapture = false → s.updates ≠ []) (done : s.applyFilter ops src = some t) :
    t.Sound := by
  obtain ⟨bg, out, background, output, channels, updates, recaptured | subtracted⟩ := applyFilter_cases done
  · obtain ⟨recapture, background', output'⟩ := recaptured
    have allocated := sound.allocated
    rw [background, output] at allocated
    refine ⟨?_, fun bg' same pixels held => ?_, fun bg' same _ => ?_⟩
    · rw [background', output']
      exact allocated
    · obtain rfl := Option.some.inj (background'.symm.trans same)
      cases held
      refine ⟨src, ?_, rfl, channels⟩
      rw [updates, recapture]
      exact List.mem_append_right _ (List.mem_singleton.mpr rfl)
    · obtain rfl := Option.some.inj (background'.symm.trans same)
      rfl
  · obtain ⟨recapture, background', pixels, output'⟩ := subtracted
    have allocated := sound.allocated
    rw [background, output] at allocated
    refine ⟨?_, fun bg' same pixels held => ?_, fun bg' same _ => ?_⟩
    · rw [background', output']
      exact allocated
    · obtain rfl := Option.some.inj (background'.symm.trans same)
      obtain ⟨frame, member, rest⟩ := sound.captured bg background pixels held
      exact ⟨frame, updates ▸ List.mem_append_left _ member, rest⟩
    · obtain rfl := Option.some.inj (background'.symm.trans same)
      exact sound.filled bg background (later recapture)

theorem Sound.step (sound : s.Sound) {event : Event Shape Pixels} (ready : s.Ready event) (now : s.step ops event = some t) :
    t.Sound := by
  cases event with
  | data | recapture | toggle | absolute | start =>
    cases now
    exact sound.congr rfl rfl rfl
  | notifyData =>
    cases now
    unfold Background.notifyData
    split
    · exact sound.allocateBuffers.congr rfl rfl rfl
    · exact sound.congr rfl rfl rfl
  | stop =>
    cases now
    exact ⟨rfl, fun _ none => (by cases none), fun _ none => by cases none⟩
  | update =>
    simp only [Background.step, Background.update] at now
    split at now
    · rename_i wanted
      split at now
      · cases now
        exact sound.congr rfl rfl rfl
      · rename_i src data
        refine Sound.applyFilter (s := { s with needUpdate := false }) (sound.congr rfl rfl rfl) (fun recapture => ?_) now
        obtain ⟨bg, out, background, output, -⟩ := applyFilter_cases now
        have background : s.bgBuffer = some bg := background
        have output : s.outputBuffer = some out := output
        exact (ready rfl src ⟨wanted, data, background ▸ rfl, output ▸ rfl, recapture⟩).1
    · cases now
      exact sound

/-- In exactly these runs every background that is subtracted was captured. -/
theorem uses_iff_ready (ops : Subtraction Pixels) (events : List (Event Shape Pixels)) :
    Machine.Allowed (Background.step ops) Uses .initial events ↔ Machine.Allowed (Background.step ops) Ready .initial events :=
  (Machine.allowed_congr (I := Sound) (fun _ _ _ ready now sound => sound.step ready now) (fun _ event sound => sound.ready_iff event)
    Sound.initial events).symm

/-- The source goes from three channels to one. The new buffer of the background is subtracted as it is. -/
theorem change_subtracts_nothing : ¬Machine.Allowed (Background.step { sub := fun a b => a - b, absDiff := fun a b => max a b - min a b })
    Uses (.initial : Background Unit Nat)
    [.data (some { channels := 3, shape := (), pixels := 40 }), .notifyData, .update,
      .data (some { channels := 1, shape := (), pixels := 50 }), .notifyData, .update] := by
  intro allowed
  have last := (((((allowed.2 _ rfl).2 _ rfl).2 _ rfl).2 _ rfl).2 _ rfl).1
  obtain ⟨bg, frame, background, -, held, -⟩ := last rfl _ ⟨rfl, rfl, rfl, rfl, rfl⟩
  cases background
  cases held

end Background

end Movid.Image
