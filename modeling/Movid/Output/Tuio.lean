import Mathlib.Data.List.TakeDrop
import Movid.Blob.Container
import Movid.Lib.Lists
import Movid.Lib.Machine

/-!
# TUIO messages

`moTuioModule::notifyData` describes each frame of tracked blobs in one bundle. Whether the blobs
are cursors or objects is decided by the first blob it ever sees.
-/

namespace Movid.Output

open Preset (Platform Value)

/-- The numbers of the messages: `asFloat` is `(float)property->asDouble()`. -/
structure Wire (P : Platform) where
  Float : Type
  asFloat : Value P → Float
  zero : Float
  one : Float

inductive Arg (F : Type) where
  | text (s : Str)
  | int (n : Int32)
  | float (x : F)

structure Message (F : Type) where
  path : Str
  args : List (Arg F)

abbrev Bundle (F : Type) := List (Message F)

def Message.ints {F : Type} (m : Message F) : List Int32 :=
  m.args.filterMap fun arg => match arg with
    | .int n => some n
    | _ => none

variable {P : Platform} (wire : Wire P)

def float (blob : Container P) (name : String) : Option (Arg wire.Float) :=
  (blob.find name).map fun value => .float (wire.asFloat value)

def int (blob : Container P) (name : String) : Option (Arg wire.Float) := (blob.integer name).map .int

inductive TuioType where
  | unknown
  | cursor
  | object
  deriving DecidableEq

/-- `sent` is what `osc` has sent so far. -/
structure Tuio (wire : Wire P) where
  fseq : Int32
  type : TuioType
  sent : List (Bundle wire.Float)

/-- What `notifyData` reads: the property `sendsize` and the list on the input. -/
structure Frame (P : Platform) where
  sendsize : Bool
  blobs : List (Container P)

namespace Tuio

def start : Tuio wire := { fseq := 0, type := .unknown, sent := [] }

def probe (blob : Container P) : Option TuioType :=
  blob.implements.bind fun implements =>
    (Container.inTags "fiducial" implements).bind fun fiducial =>
      if fiducial then some .object
      else (Container.inTags "markerlessobject" implements).map fun markerless => if markerless then .object else .cursor

def path : TuioType → Str
  | .object => "/tuio/2Dobj".toList
  | _ => "/tuio/2Dcur".toList

/-- An entry of the alive message. The tags are asserted. -/
def alive (blob : Container P) : Option (Arg wire.Float) :=
  blob.implements.bind fun implements =>
    (Container.inTags "tracked" implements).bind fun tracked =>
      (Container.inTags "pos" implements).bind fun pos =>
        if tracked && pos then int wire blob "blob_id" else none

def setObject (blob : Container P) : Option (List (Arg wire.Float)) := do
  let s ← int wire blob "blob_id"
  let i ← int wire blob "fiducial_id"
  let x ← float wire blob "x"
  let y ← float wire blob "y"
  let a ← float wire blob "angle"
  some [s, i, x, y, a, .float wire.zero, .float wire.zero, .float wire.zero, .float wire.zero, .float wire.zero]

/-- The size of a cursor is no part of the TUIO specification. -/
def size (sendsize : Bool) (blob : Container P) : Option (List (Arg wire.Float)) :=
  if sendsize then
    blob.implements.bind fun implements =>
      (Container.inTags "size" implements).bind fun size =>
        if size then do
          let w ← float wire blob "width"
          let h ← float wire blob "height"
          some [w, h]
        else some []
  else some []

def setCursor (sendsize : Bool) (blob : Container P) : Option (List (Arg wire.Float)) := do
  let s ← int wire blob "blob_id"
  let x ← float wire blob "x"
  let y ← float wire blob "y"
  let size ← size wire sendsize blob
  some ([s, x, y, .float wire.zero, .float wire.zero, .float wire.zero] ++ size)

def set (type : TuioType) (sendsize : Bool) (blob : Container P) : Option (Message wire.Float) :=
  (if type = .object then setObject wire blob else setCursor wire sendsize blob).map fun args =>
    { path := path type, args := .text "set".toList :: args }

/-- The alive message, a set message for each blob, and the frame sequence message. -/
def bundle (type : TuioType) (fseq : Int32) (frame : Frame P) : Option (Bundle wire.Float) := do
  let ids ← frame.blobs.mapM (alive wire)
  let sets ← frame.blobs.mapM (set wire type frame.sendsize)
  some ({ path := path type, args := .text "alive".toList :: ids } :: (sets ++
    [{ path := path type, args := [.text "fseq".toList, .int fseq] }]))

def send (s : Tuio wire) (type : TuioType) (frame : Frame P) : Option (Tuio wire) :=
  (bundle wire type s.fseq frame).map fun b => { fseq := s.fseq + 1, type, sent := s.sent ++ [b] }

/-- `moTuioModule::notifyData`, once the module is started. -/
def notifyData (s : Tuio wire) (frame : Frame P) : Option (Tuio wire) :=
  match s.type, frame.blobs with
  | .unknown, [] => some s
  | .unknown, blob :: _ => (probe blob).bind fun type => send wire s type frame
  | type, _ => send wire s type frame

def sends (type : TuioType) (blobs : List (Container P)) : Bool := type ≠ .unknown || !blobs.isEmpty

theorem notifyData_known {s : Tuio wire} (known : s.type ≠ .unknown) (frame : Frame P) :
    notifyData wire s frame = send wire s s.type frame := by
  unfold notifyData
  cases type : s.type with
  | unknown => exact absurd type known
  | cursor => rfl
  | object => rfl

theorem notifyData_sends {s t : Tuio wire} {frame : Frame P} (done : notifyData wire s frame = some t) :
    t.sent.length = s.sent.length + (sends s.type frame.blobs).toNat := by
  have sent {type : TuioType} (h : send wire s type frame = some t) : t.sent.length = s.sent.length + 1 := by
    obtain ⟨b, -, rfl⟩ := Option.map_eq_some_iff.mp h
    exact List.length_append
  unfold sends
  by_cases unknown : s.type = .unknown
  · unfold notifyData at done
    cases blobs : frame.blobs with
    | nil =>
      rw [unknown, blobs] at done
      cases done
      rw [unknown]
      rfl
    | cons blob rest =>
      rw [unknown, blobs] at done
      obtain ⟨type, -, done⟩ := Option.bind_eq_some_iff.mp done
      rw [sent done, unknown]
      rfl
  · rw [notifyData_known wire unknown] at done
    rw [sent done, decide_eq_true unknown]
    rfl

/-! ### What a frame has to carry -/

def reads (type : TuioType) (sendsize : Bool) (blob : Container P) : List String :=
  if type = .object then ["blob_id", "fiducial_id", "x", "y", "angle"]
  else ["blob_id", "x", "y"] ++ if sendsize ∧ "size".toList ∈ blob.tags then ["width", "height"] else []

structure Complete (type : TuioType) (sendsize : Bool) (blob : Container P) : Prop where
  tracked : "tracked".toList ∈ blob.tags
  pos : "pos".toList ∈ blob.tags
  carries : ∀ name ∈ reads type sendsize blob, blob.hasProperty name = true

def layout (frames : List (Frame P)) : TuioType :=
  (((frames.flatMap (·.blobs)).head?).bind probe).getD .unknown

def ids (frame : Frame P) : Option (List Int32) := frame.blobs.mapM (·.integer "blob_id")

/-- The bundle has one path, the ids of the frame, a set message for each of them and the
number. -/
def Describes {F : Type} (path : Str) (number : Int32) (frame : Frame P) (b : Bundle F) : Prop :=
  ∃ alive sets, ids frame = some alive ∧
    List.Forall₂ (fun id (m : Message F) => m.path = path ∧ ∃ rest, m.args = .text "set".toList :: .int id :: rest)
      alive sets ∧
    b = { path, args := .text "alive".toList :: alive.map .int } ::
      (sets ++ [{ path, args := [.text "fseq".toList, .int number] }])

def received {wire : Wire P} (s : Tuio wire) : List Int32 :=
  ((s.sent.getLast?.bind (·.head?)).map Message.ints).getD []

section Blob

variable {type : TuioType} {sendsize : Bool} {blob : Container P}

theorem Complete.implements (complete : Complete type sendsize blob) :
    ∃ implements, blob.implements = some implements ∧ blob.tags = Utils.fields implements [','] := by
  have some_ := complete.tracked
  unfold Container.tags at some_ ⊢
  cases found : blob.implements with
  | none =>
    rw [found] at some_
    exact absurd some_ List.not_mem_nil
  | some implements => exact ⟨implements, rfl, rfl⟩

theorem Complete.id (complete : Complete type sendsize blob) : ∃ id, blob.integer "blob_id" = some id := by
  have carried := complete.carries "blob_id" (by unfold reads; split <;> simp)
  obtain ⟨value, found⟩ := Option.isSome_iff_exists.mp carried
  exact ⟨value.asInteger, by rw [Container.integer, found]; rfl⟩

theorem Complete.alive (complete : Complete type sendsize blob) {id : Int32}
    (known : blob.integer "blob_id" = some id) : alive wire blob = some (.int id) := by
  obtain ⟨implements, found, tags⟩ := complete.implements
  have tracked := complete.tracked
  have pos := complete.pos
  rw [tags] at tracked pos
  unfold Tuio.alive
  rw [found, Option.bind_some, Container.inTags_eq, Container.inTags_eq]
  simp only [Option.bind_some, tracked, pos, decide_true, Bool.and_true, if_true]
  rw [int, known]
  rfl

theorem Complete.float (complete : Complete type sendsize blob) {name : String} (read : name ∈ reads type sendsize blob) :
    ∃ x, float wire blob name = some x := by
  obtain ⟨value, found⟩ := Option.isSome_iff_exists.mp (complete.carries name read)
  exact ⟨_, by rw [Output.float, found]; rfl⟩

theorem Complete.size (complete : Complete type sendsize blob) (cursor : type ≠ .object) :
    ∃ args, size wire sendsize blob = some args := by
  obtain ⟨implements, found, tags⟩ := complete.implements
  unfold Tuio.size
  cases sendsize with
  | false => exact ⟨[], rfl⟩
  | true =>
    rw [if_pos rfl, found, Option.bind_some, Container.inTags_eq, Option.bind_some, ← tags]
    by_cases sized : "size".toList ∈ blob.tags
    · have read (name : String) (member : name ∈ ["width", "height"]) : name ∈ reads type true blob := by
        rw [reads, if_neg cursor, if_pos ⟨rfl, sized⟩]
        exact List.mem_append_right _ member
      obtain ⟨w, width⟩ := complete.float wire (read "width" (by simp))
      obtain ⟨h, height⟩ := complete.float wire (read "height" (by simp))
      rw [decide_eq_true sized, if_pos rfl, width, height]
      exact ⟨[w, h], rfl⟩
    · rw [decide_eq_false sized]
      exact ⟨[], rfl⟩

theorem Complete.set (complete : Complete type sendsize blob) {id : Int32} (known : blob.integer "blob_id" = some id) :
    ∃ m, set wire type sendsize blob = some m ∧ m.path = path type ∧
      ∃ rest, m.args = .text "set".toList :: .int id :: rest := by
  have first : int wire blob "blob_id" = some (.int id) := by rw [int, known]; rfl
  unfold Tuio.set
  by_cases object : type = .object
  · have read (name : String) (member : name ∈ ["blob_id", "fiducial_id", "x", "y", "angle"]) :
        name ∈ reads type sendsize blob := by rwa [reads, if_pos object]
    obtain ⟨value, found⟩ := Option.isSome_iff_exists.mp (complete.carries "fiducial_id" (read _ (by simp)))
    have i : int wire blob "fiducial_id" = some (.int value.asInteger) := by
      rw [int, Container.integer, found]
      rfl
    obtain ⟨x, hx⟩ := complete.float wire (read "x" (by simp))
    obtain ⟨y, hy⟩ := complete.float wire (read "y" (by simp))
    obtain ⟨a, ha⟩ := complete.float wire (read "angle" (by simp))
    rw [if_pos object, setObject, first, i, hx, hy, ha]
    exact ⟨_, rfl, rfl, _, rfl⟩
  · have read (name : String) (member : name ∈ ["blob_id", "x", "y"]) : name ∈ reads type sendsize blob := by
      rw [reads, if_neg object]
      exact List.mem_append_left _ member
    obtain ⟨x, hx⟩ := complete.float wire (read "x" (by simp))
    obtain ⟨y, hy⟩ := complete.float wire (read "y" (by simp))
    obtain ⟨more, size⟩ := complete.size wire object
    rw [if_neg object, setCursor, first, hx, hy, size]
    exact ⟨_, rfl, rfl, _, rfl⟩

theorem Complete.probe (complete : Complete type sendsize blob) : ∃ kind, probe blob = some kind ∧ kind ≠ .unknown := by
  obtain ⟨implements, found, -⟩ := complete.implements
  unfold Tuio.probe
  rw [found, Option.bind_some, Container.inTags_eq, Option.bind_some, Container.inTags_eq]
  split
  · exact ⟨.object, rfl, by decide⟩
  · refine ⟨_, rfl, ?_⟩
    dsimp only
    split <;> decide

end Blob

/-! ### One frame -/

theorem messages_describe {type : TuioType} {sendsize : Bool} {blobs : List (Container P)}
    (complete : ∀ blob ∈ blobs, Complete type sendsize blob) :
    ∃ alive sets, blobs.mapM (·.integer "blob_id") = some alive ∧
      blobs.mapM (Tuio.alive wire) = some (alive.map .int) ∧ blobs.mapM (set wire type sendsize) = some sets ∧
      List.Forall₂ (fun id (m : Message wire.Float) => m.path = path type ∧
        ∃ rest, m.args = .text "set".toList :: .int id :: rest) alive sets := by
  induction blobs with
  | nil => exact ⟨[], [], rfl, rfl, rfl, .nil⟩
  | cons blob rest ih =>
    obtain ⟨alive, sets, known, entries, messages, described⟩ := ih fun b later => complete b (List.mem_cons_of_mem _ later)
    have first := complete blob List.mem_cons_self
    obtain ⟨id, hid⟩ := first.id
    obtain ⟨m, set, shape⟩ := first.set wire hid
    refine ⟨id :: alive, m :: sets, ?_, ?_, ?_, .cons shape described⟩
    · rw [List.mapM_cons, hid, known]
      rfl
    · rw [List.mapM_cons, first.alive wire hid, entries]
      rfl
    · rw [List.mapM_cons, set, messages]
      rfl

theorem bundle_describes {type : TuioType} {frame : Frame P}
    (complete : ∀ blob ∈ frame.blobs, Complete type frame.sendsize blob) (number : Int32) :
    ∃ b, bundle wire type number frame = some b ∧ Describes (path type) number frame b := by
  obtain ⟨alive, sets, known, entries, messages, described⟩ := messages_describe wire complete
  refine ⟨_, ?_, alive, sets, known, described, rfl⟩
  rw [bundle, entries, messages]
  rfl

theorem Describes.ints {F : Type} {path : Str} {number : Int32} {frame : Frame P} {b : Bundle F}
    (describes : Describes path number frame b) : (b.head?.map Message.ints) = ids frame := by
  obtain ⟨alive, sets, known, -, rfl⟩ := describes
  rw [known, List.head?_cons, Option.map_some, Message.ints]
  simp [List.filterMap_map]

/-! ### Runs -/

/-- The frames from the first that has a blob. -/
def described (frames : List (Frame P)) : List (Frame P) := frames.dropWhile (·.blobs.isEmpty)

/-- What a run over the frames leaves, if `type` is the type of their first blob. -/
structure Told (type : TuioType) (frames : List (Frame P)) (s : Tuio wire) : Prop where
  unknown : described frames = [] → s.type = .unknown
  decided : described frames ≠ [] → s.type = type ∧ type ≠ .unknown
  fseq : s.fseq = Int32.ofNat (described frames).length
  sent : List.Forall₂ (fun entry b => Describes (path type) (Int32.ofNat entry.2) entry.1 b)
    (described frames).zipIdx s.sent

variable {wire}

theorem Told.send {type : TuioType} {frames : List (Frame P)} {s : Tuio wire} (told : Told wire type frames s)
    (known : type ≠ .unknown) {frame : Frame P} (complete : ∀ blob ∈ frame.blobs, Complete type frame.sendsize blob)
    (next : described (frames ++ [frame]) = described frames ++ [frame]) :
    ∃ t, send wire s type frame = some t ∧ Told wire type (frames ++ [frame]) t := by
  obtain ⟨b, made, describes⟩ := bundle_describes wire complete s.fseq
  refine ⟨_, by rw [Tuio.send, made]; rfl, ?_, ?_, ?_, ?_⟩
  · simp [next]
  · exact fun _ => ⟨rfl, known⟩
  · rw [next, told.fseq, List.length_append, Int32.ofNat_add]
    rfl
  · rw [next, List.zipIdx_append, Nat.zero_add]
    rw [told.fseq] at describes
    exact List.rel_append told.sent (.cons describes .nil)

theorem Told.step {type : TuioType} {frames : List (Frame P)} {s : Tuio wire} (told : Told wire type frames s)
    {frame : Frame P} (complete : ∀ blob ∈ frame.blobs, Complete type frame.sendsize blob)
    (first : described frames = [] → ∀ blob ∈ frame.blobs.head?, probe blob = some type) :
    ∃ t, notifyData wire s frame = some t ∧ Told wire type (frames ++ [frame]) t := by
  unfold notifyData
  by_cases quiet : described frames = []
  · have empty : ∀ f ∈ frames, f.blobs.isEmpty = true := List.dropWhile_eq_nil_iff.mp quiet
    have next : described (frames ++ [frame]) = described [frame] := List.dropWhile_append_of_pos empty
    rw [told.unknown quiet]
    cases blobs : frame.blobs with
    | nil =>
      have still : described (frames ++ [frame]) = described frames := by
        rw [next, quiet, described, List.dropWhile_cons_of_pos (by rw [blobs]; rfl)]
        rfl
      exact ⟨s, rfl, by rw [still]; exact told.unknown, by rw [still]; exact told.decided,
        by rw [still]; exact told.fseq, by rw [still]; exact told.sent⟩
    | cons blob rest =>
      have member : blob ∈ frame.blobs := by rw [blobs]; exact List.mem_cons_self
      have kind := first quiet blob (by rw [blobs]; rfl)
      obtain ⟨kind', probed, known⟩ := (complete blob member).probe
      obtain rfl : kind' = type := Option.some.inj (probed.symm.trans kind)
      simp only [kind, Option.bind_some]
      apply told.send known complete
      rw [next, quiet, described, List.dropWhile_cons_of_neg (by rw [blobs]; exact Bool.false_ne_true)]
      rfl
  · obtain ⟨same, known⟩ := told.decided quiet
    have next : described (frames ++ [frame]) = described frames ++ [frame] := by
      unfold described at quiet ⊢
      rw [List.dropWhile_append, if_neg (by simpa using quiet)]
    have sends := notifyData_known wire (same ▸ known) frame
    unfold notifyData at sends
    rw [sends, same]
    exact told.send known complete next

theorem layout_eq {before after : List (Frame P)} {frame : Frame P} {blob : Container P} (quiet : described before = [])
    (first : blob ∈ frame.blobs.head?) : layout (before ++ frame :: after) = (probe blob).getD .unknown := by
  have empty : ∀ f ∈ before, f.blobs.isEmpty = true := List.dropWhile_eq_nil_iff.mp quiet
  have none : before.flatMap (·.blobs) = [] := List.flatMap_eq_nil_iff.mpr fun f member => List.isEmpty_iff.mp (empty f member)
  obtain ⟨rest, blobs⟩ := List.head?_eq_some_iff.mp first
  unfold layout
  rw [List.flatMap_append, none, List.nil_append, List.flatMap_cons, blobs]
  rfl

theorem told_run {frames : List (Frame P)}
    (complete : ∀ frame ∈ frames, ∀ blob ∈ frame.blobs, Complete (layout frames) frame.sendsize blob) (n : ℕ) :
    ∃ s, Machine.attempt (notifyData wire) (start wire) (frames.take n) = some s ∧
      Told wire (layout frames) (frames.take n) s := by
  induction n with
  | zero => exact ⟨start wire, rfl, fun _ => rfl, fun some_ => absurd rfl some_, rfl, .nil⟩
  | succ n ih =>
    obtain ⟨s, reached, told⟩ := ih
    rw [List.take_add_one]
    cases there : frames[n]? with
    | none => exact ⟨s, by simpa using reached, by simpa using told⟩
    | some frame =>
      have member : frame ∈ frames := List.mem_of_getElem? there
      have split : frames = frames.take n ++ frame :: frames.drop (n + 1) := by
        obtain ⟨inside, rfl⟩ := List.getElem?_eq_some_iff.mp there
        rw [List.cons_getElem_drop_succ, List.take_append_drop]
      have first (quiet : described (frames.take n) = []) (blob : Container P) (head : blob ∈ frame.blobs.head?) :
          probe blob = some (layout frames) := by
        obtain ⟨kind, probed, -⟩ := (complete frame member blob (List.mem_of_mem_head? head)).probe
        rw [split, layout_eq quiet head, probed]
        rfl
      obtain ⟨t, next, told⟩ := told.step (complete frame member) first
      refine ⟨t, ?_, told⟩
      rw [Machine.attempt_append, reached]
      simp only [Option.toList_some, Option.bind_some, Machine.attempt, next]

theorem Told.received {type : TuioType} {frames : List (Frame P)} {s : Tuio wire} (told : Told wire type frames s) :
    some (received s) = (frames.getLast?.map ids).getD (some []) := by
  have sent := told.sent
  unfold Tuio.received
  rcases List.eq_nil_or_concat (described frames) with quiet | ⟨before, frame, last⟩
  · -- nothing was sent, and the last frame has no blob
    rw [quiet] at sent
    have empty : ∀ f ∈ frames, f.blobs.isEmpty = true := List.dropWhile_eq_nil_iff.mp quiet
    rw [List.forall₂_nil_left_iff.mp sent]
    cases final : frames.getLast? with
    | none => rfl
    | some f =>
      have none : f.blobs = [] := List.isEmpty_iff.mp (empty f (List.mem_of_getLast? final))
      rw [Option.map_some, Option.getD_some, ids, none]
      rfl
  · obtain ⟨skipped, suffix⟩ : described frames <:+ frames := List.dropWhile_suffix _
    rw [last, List.concat_eq_append] at sent suffix
    rw [List.zipIdx_append] at sent
    obtain ⟨b, final, describes⟩ := Lists.forall₂_getLast sent
    obtain ⟨alive, known⟩ : ∃ alive, ids frame = some alive := by
      obtain ⟨alive, -, known, -⟩ := describes
      exact ⟨alive, known⟩
    rw [← suffix, final, Option.bind_some, describes.ints, ← List.append_assoc, List.getLast?_concat]
    exact congrArg some (by rw [known]; rfl) |>.trans known.symm

/-- The run sends nothing before the first blob, then a bundle for each frame that describes
it, and the receiver knows the ids of the last frame. -/
theorem run_describes (frames : List (Frame P))
    (complete : ∀ frame ∈ frames, ∀ blob ∈ frame.blobs, Complete (layout frames) frame.sendsize blob) (n : ℕ) :
    ∃ s, Machine.attempt (notifyData wire) (start wire) (frames.take n) = some s ∧
      List.Forall₂ (fun entry b => Describes (path (layout frames)) (Int32.ofNat entry.2) entry.1 b)
        ((frames.take n).dropWhile (·.blobs.isEmpty)).zipIdx s.sent ∧
      some (received s) = ((frames.take n).getLast?.map ids).getD (some []) := by
  obtain ⟨s, reached, told⟩ := told_run complete n
  exact ⟨s, reached, told.sent, told.received⟩

def touch : Container Platform.whole :=
  Container.empty.put "implements" (.string "pos,size,tracked".toList) |>.put "blob_id" (.integer 7)
    |>.put "x" (.double (0 : Int)) |>.put "y" (.double (1 : Int)) |>.put "width" (.double (2 : Int))
    |>.put "height" (.double (2 : Int))

theorem touch_complete : Complete .cursor true touch := ⟨by decide, by decide, by decide⟩

/-- The numbers are the integers of the properties. -/
def wholeWire : Wire Platform.whole := { Float := Int, asFloat := fun value => value.asInteger.toInt, zero := 0, one := 1 }

/-- A blob comes and goes again. -/
def touches : List (Frame Platform.whole) := [⟨true, []⟩, ⟨true, [touch]⟩, ⟨true, []⟩]

theorem touches_described :
    layout touches = .cursor ∧ (∀ frame ∈ touches, ∀ blob ∈ frame.blobs, Complete (layout touches) frame.sendsize blob) ∧
    ∃ s, Machine.attempt (notifyData wholeWire) (start wholeWire) (touches.take 3) = some s ∧
      List.Forall₂ (fun entry b => Describes (path (layout touches)) (Int32.ofNat entry.2) entry.1 b)
        ((touches.take 3).dropWhile (·.blobs.isEmpty)).zipIdx s.sent ∧
      some (received s) = ((touches.take 3).getLast?.map ids).getD (some []) := by
  have cursor : layout touches = .cursor := by decide
  have complete : ∀ frame ∈ touches, ∀ blob ∈ frame.blobs, Complete (layout touches) frame.sendsize blob := by
    rw [cursor]
    simp [touches, touch_complete]
  exact ⟨cursor, complete, run_describes touches complete 3⟩

end Tuio

end Movid.Output
