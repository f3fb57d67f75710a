import Movid.Blob.Contract
import Movid.Output.Tuio

/-!
# What a TUIO message reads

The layout of the messages is decided by the first blob and kept for all later frames. Whether a
later blob has the properties of that layout is up to its tags.
-/

namespace Movid

open Preset (Platform)

variable {P : Platform}

namespace Container

/-- The promises of the documentation, and what `moHuObjectFinderModule::applyFilter` puts with its own tag. -/
def declarations : List (String × List String) := promises ++ [("markerlessobject", ["angle", "fiducial_id"])]

/-- The property goes with a tag of the blob. Every container has `implements`. -/
def Declares (c : Container P) (name : String) : Prop :=
  name = "implements" ∨ ∃ declaration ∈ declarations, declaration.1.toList ∈ c.tags ∧ name ∈ declaration.2

instance decidableDeclares (c : Container P) (name : String) : Decidable (c.Declares name) := instDecidableOr

/-- What the tags say is there. -/
def Declared (c : Container P) : Prop := ∀ name, c.Declares name → c.hasProperty name = true

def isObject (c : Container P) : Bool := "fiducial".toList ∈ c.tags || "markerlessobject".toList ∈ c.tags

variable {c : Container P}

theorem Declared.honours (declared : c.Declared) : c.Honours := by
  intro promise listed tag name promised
  exact declared name (Or.inr ⟨promise, List.mem_append_left _ listed, tag, promised⟩)

theorem Honours.declared (honours : c.Honours) (present : c.hasProperty "implements" = true)
    (markerless : "markerlessobject".toList ∈ c.tags → c.hasProperty "angle" = true ∧ c.hasProperty "fiducial_id" = true) :
    c.Declared := by
  rintro name (rfl | ⟨declaration, listed, tag, named⟩)
  · exact present
  · rcases List.mem_append.mp listed with promised | own
    · exact honours declaration promised tag name named
    · obtain rfl := List.mem_singleton.mp own
      obtain ⟨angle, fid⟩ := markerless tag
      rcases List.mem_pair.mp named with rfl | rfl
      · exact angle
      · exact fid

theorem declares_of_tag (tag : String) (names : List String) (declaration : (tag, names) ∈ declarations)
    (tagged : tag.toList ∈ c.tags) {name : String} (named : name ∈ names) : c.Declares name :=
  Or.inr ⟨_, declaration, tagged, named⟩

/-- Only objects declare a `fiducial_id`. -/
theorem declares_fiducial_id : c.Declares "fiducial_id" ↔ c.isObject = true := by
  unfold isObject
  rw [Bool.or_eq_true, decide_eq_true_eq, decide_eq_true_eq]
  constructor
  · rintro (absurd_ | ⟨declaration, listed, tag, named⟩)
    · exact absurd absurd_ (by decide)
    · simp only [declarations, promises, List.cons_append, List.nil_append, List.mem_cons, List.not_mem_nil, or_false] at listed
      rcases listed with rfl | rfl | rfl | rfl | rfl | rfl | rfl | rfl
      all_goals first
        | exact absurd named (by decide)
        | exact Or.inl tag
        | exact Or.inr tag
  · rintro (fiducial | markerless)
    · exact declares_of_tag "fiducial" ["angle", "leaf_size", "root_size", "fiducial_id"] (by decide) fiducial (by decide)
    · exact declares_of_tag "markerlessobject" ["angle", "fiducial_id"] (by decide) markerless (by decide)

theorem declares_angle (object : c.isObject = true) : c.Declares "angle" := by
  unfold isObject at object
  rw [Bool.or_eq_true, decide_eq_true_eq, decide_eq_true_eq] at object
  rcases object with fiducial | markerless
  · exact declares_of_tag "fiducial" ["angle", "leaf_size", "root_size", "fiducial_id"] (by decide) fiducial (by decide)
  · exact declares_of_tag "markerlessobject" ["angle", "fiducial_id"] (by decide) markerless (by decide)

end Container

theorem Blobs.huObjectFinder_declared {ops : Doubles P.Double} {src : Blobs.Size} {minId : Int32} {contours : List (Blobs.Shape P.Double)}
    {c : Container P} (member : c ∈ Blobs.huObjectFinder ops src minId contours) : c.Declared := by
  have honours := Blobs.huObjectFinder_honours ops member
  obtain ⟨shape, -, rfl⟩ := List.mem_map.mp member
  apply honours.declared
  · rw [Blobs.hasProperty_container]
    rfl
  · refine fun _ => ⟨?_, ?_⟩
    all_goals
      rw [Blobs.hasProperty_container]
      rfl

namespace Output.Tuio

open Container

variable {wire : Wire P}

/-- The blobs that may come in. -/
structure Tracked (blob : Container P) : Prop where
  tracked : "tracked".toList ∈ blob.tags
  pos : "pos".toList ∈ blob.tags
  declared : blob.Declared

/-- The type by which the frame is laid out. -/
def used (s : Tuio wire) (frame : Frame P) : TuioType :=
  if s.type = .unknown then (frame.blobs.head?.bind probe).getD .unknown else s.type

def ReadsDeclared (s : Tuio wire) (frame : Frame P) : Prop :=
  ∀ blob ∈ frame.blobs, ∀ name ∈ reads (used s frame) frame.sendsize blob, blob.Declares name

instance decidableReadsDeclared (s : Tuio wire) (frame : Frame P) : Decidable (ReadsDeclared s frame) :=
  List.decidableBAll _ _

def Objects (frame : Frame P) : Prop := ∀ blob ∈ frame.blobs, blob.isObject = true

/-! ### The code reads what `reads` lists -/

theorem bind_isSome_iff {α β : Type*} {x : Option α} {f : α → Option β} {q : Prop} (next : ∀ a, (f a).isSome = true ↔ q) :
    (x.bind f).isSome = true ↔ x.isSome = true ∧ q := by
  cases x with
  | none => simp
  | some a => simp [next a]

section Blob

variable {type : TuioType} {sendsize : Bool} {blob : Container P}

theorem float_isSome (wire : Wire P) (blob : Container P) (name : String) : (float wire blob name).isSome = blob.hasProperty name := Option.isSome_map

theorem int_isSome (wire : Wire P) (blob : Container P) (name : String) : (int wire blob name).isSome = blob.hasProperty name := by
  rw [int, Option.isSome_map, Container.integer_isSome]

theorem alive_isSome : (alive wire blob).isSome = true ↔
    "tracked".toList ∈ blob.tags ∧ "pos".toList ∈ blob.tags ∧ blob.hasProperty "blob_id" = true := by
  unfold alive
  cases found : blob.implements with
  | none => simp [Container.tags, found]
  | some implements =>
    rw [Container.tags_eq found, Option.bind_some, Container.inTags_eq, Option.bind_some, Container.inTags_eq, Option.bind_some,
      ← int_isSome wire, ← Bool.decide_and, ← and_assoc]
    by_cases both : "tracked".toList ∈ Utils.fields implements [','] ∧ "pos".toList ∈ Utils.fields implements [',']
    · rw [decide_eq_true both, if_pos rfl, and_iff_right both]
    · rw [decide_eq_false both, if_neg Bool.false_ne_true]
      exact iff_of_false Bool.false_ne_true fun h => both h.1

theorem size_isSome (wire : Wire P) (present : blob.hasProperty "implements" = true) : (size wire sendsize blob).isSome = true ↔
    ∀ name ∈ (if sendsize ∧ "size".toList ∈ blob.tags then ["width", "height"] else []), blob.hasProperty name = true := by
  obtain ⟨implements, found⟩ := Option.isSome_iff_exists.mp ((Container.implements_isSome blob).trans present)
  unfold size
  cases sendsize with
  | false => simp
  | true =>
    rw [if_pos rfl, found, Option.bind_some, Container.inTags_eq, Option.bind_some, ← Container.tags_eq found]
    by_cases sized : "size".toList ∈ blob.tags
    · rw [decide_eq_true sized, if_pos rfl, if_pos ⟨rfl, sized⟩, List.forall_mem_cons, List.forall_mem_singleton,
        ← float_isSome wire blob "width", ← float_isSome wire blob "height"]
      refine bind_isSome_iff fun w => ?_
      exact (bind_isSome_iff fun h => iff_of_true rfl trivial).trans (and_iff_left trivial)
    · rw [decide_eq_false sized, if_neg Bool.false_ne_true, if_neg fun h => sized h.2]
      exact iff_of_true rfl (List.forall_mem_nil _)

theorem setObject_isSome : (setObject wire blob).isSome = true ↔
    ∀ name ∈ ["blob_id", "fiducial_id", "x", "y", "angle"], blob.hasProperty name = true := by
  simp only [List.forall_mem_cons]
  rw [← int_isSome wire blob "blob_id", ← int_isSome wire blob "fiducial_id", ← float_isSome wire blob "x",
    ← float_isSome wire blob "y", ← float_isSome wire blob "angle"]
  refine bind_isSome_iff fun s => bind_isSome_iff fun i => bind_isSome_iff fun x => bind_isSome_iff fun y => bind_isSome_iff fun a => ?_
  exact iff_of_true rfl (List.forall_mem_nil _)

theorem setCursor_isSome (present : blob.hasProperty "implements" = true) : (setCursor wire sendsize blob).isSome = true ↔
    ∀ name ∈ ["blob_id", "x", "y"] ++ (if sendsize ∧ "size".toList ∈ blob.tags then ["width", "height"] else []),
      blob.hasProperty name = true := by
  rw [List.forall_mem_append, ← size_isSome wire present]
  simp only [List.forall_mem_cons]
  rw [← int_isSome wire blob "blob_id", ← float_isSome wire blob "x", ← float_isSome wire blob "y"]
  simp only [and_assoc]
  refine bind_isSome_iff fun s => bind_isSome_iff fun x => bind_isSome_iff fun y => ?_
  rw [and_iff_right (List.forall_mem_nil _)]
  exact (bind_isSome_iff fun more => iff_of_true rfl trivial).trans (and_iff_left trivial)

theorem set_isSome (present : blob.hasProperty "implements" = true) : (set wire type sendsize blob).isSome = true ↔
    ∀ name ∈ reads type sendsize blob, blob.hasProperty name = true := by
  unfold set reads
  rw [Option.isSome_map]
  split
  · exact setObject_isSome
  · exact setCursor_isSome present

theorem complete_iff : Complete type sendsize blob ↔ (alive wire blob).isSome = true ∧ (set wire type sendsize blob).isSome = true := by
  rw [alive_isSome]
  constructor
  · intro complete
    obtain ⟨implements, found, -⟩ := complete.implements
    have present : blob.hasProperty "implements" = true := by
      rw [← Container.implements_isSome, found]
      rfl
    refine ⟨⟨complete.tracked, complete.pos, complete.carries "blob_id" ?_⟩, (set_isSome present).mpr complete.carries⟩
    unfold reads
    split <;> simp
  · rintro ⟨⟨tracked, pos, -⟩, shown⟩
    have present : blob.hasProperty "implements" = true := by
      rw [← Container.implements_isSome]
      cases found : blob.implements with
      | none => simp [Container.tags, found] at tracked
      | some implements => rfl
    exact ⟨tracked, pos, (set_isSome present).mp shown⟩

end Blob

/-! ### One frame -/

variable {s t : Tuio wire} {frame : Frame P}

theorem send_isSome {type : TuioType} : (send wire s type frame).isSome = true ↔
    ∀ blob ∈ frame.blobs, Complete type frame.sendsize blob := by
  rw [send, Option.isSome_map]
  have both : (bundle wire type s.fseq frame).isSome = true ↔
      (frame.blobs.mapM (alive wire)).isSome = true ∧ (frame.blobs.mapM (set wire type frame.sendsize)).isSome = true :=
    bind_isSome_iff fun ids => (bind_isSome_iff fun sets => iff_of_true rfl trivial).trans (and_iff_left trivial)
  rw [both, Lists.mapM_isSome, Lists.mapM_isSome, ← forall₂_and]
  exact forall₂_congr fun blob _ => complete_iff.symm

theorem used_of_known (known : s.type ≠ .unknown) : used s frame = s.type := if_neg known

/-- The frame goes out exactly when every blob has what the layout reads. -/
theorem notifyData_isSome : (notifyData wire s frame).isSome = true ↔
    ∀ blob ∈ frame.blobs, Complete (used s frame) frame.sendsize blob := by
  by_cases unknown : s.type = .unknown
  · unfold notifyData used
    rw [if_pos unknown, unknown]
    cases blobs : frame.blobs with
    | nil => exact iff_of_true rfl (List.forall_mem_nil _)
    | cons blob rest =>
      rw [List.head?_cons, Option.bind_some]
      dsimp only
      cases probed : probe blob with
      | some kind => rw [Option.bind_some, send_isSome, blobs]; rfl
      | none =>
        refine iff_of_false Bool.false_ne_true fun complete => ?_
        obtain ⟨kind, found, -⟩ := (complete blob List.mem_cons_self).probe
        exact absurd (probed.symm.trans found) (by simp)
  · rw [notifyData_known wire unknown, send_isSome, used_of_known unknown]

theorem notifyData_type (done : notifyData wire s frame = some t) : t.type = used s frame := by
  have sent {type : TuioType} (h : send wire s type frame = some t) : t.type = type := by
    obtain ⟨b, -, rfl⟩ := Option.map_eq_some_iff.mp h
    rfl
  by_cases unknown : s.type = .unknown
  · unfold notifyData at done
    unfold used
    rw [if_pos unknown]
    cases blobs : frame.blobs with
    | nil =>
      rw [unknown, blobs] at done
      cases done
      exact unknown
    | cons blob rest =>
      rw [unknown, blobs] at done
      obtain ⟨type, probed, done⟩ := Option.bind_eq_some_iff.mp done
      rw [List.head?_cons, Option.bind_some, probed, sent done]
      rfl
  · rw [notifyData_known wire unknown] at done
    rw [sent done, used_of_known unknown]

theorem Tracked.complete {type : TuioType} {sendsize : Bool} {blob : Container P} (tracked : Tracked blob)
    (declares : ∀ name ∈ reads type sendsize blob, blob.Declares name) : Complete type sendsize blob :=
  ⟨tracked.tracked, tracked.pos, fun name read => tracked.declared name (declares name read)⟩

theorem Tracked.probe {blob : Container P} (tracked : Tracked blob) : ∃ kind, probe blob = some kind ∧ kind ≠ .unknown := by
  have complete : Complete .cursor false blob := by
    refine ⟨tracked.tracked, tracked.pos, fun name read => tracked.declared name ?_⟩
    rcases List.mem_cons.mp read with rfl | read
    · exact declares_of_tag "tracked" ["blob_id"] (by decide) tracked.tracked (by decide)
    · exact declares_of_tag "pos" ["x", "y"] (by decide) tracked.pos read
  exact complete.probe

/-- What the layout of an object reads is declared by objects only. -/
theorem Tracked.declares_iff {blob : Container P} (tracked : Tracked blob) (type : TuioType) (sendsize : Bool) :
    (∀ name ∈ reads type sendsize blob, blob.Declares name) ↔ (type = .object → blob.isObject = true) := by
  have id : blob.Declares "blob_id" := declares_of_tag "tracked" ["blob_id"] (by decide) tracked.tracked (by decide)
  have at_ (name : String) (named : name ∈ ["x", "y"]) : blob.Declares name :=
    declares_of_tag "pos" ["x", "y"] (by decide) tracked.pos named
  unfold reads
  by_cases object : type = .object
  · rw [if_pos object, imp_iff_right object, ← declares_fiducial_id]
    simp only [List.forall_mem_cons]
    refine ⟨fun all => all.2.1, fun fid => ⟨id, fid, at_ "x" (by decide), at_ "y" (by decide), ?_, List.forall_mem_nil _⟩⟩
    exact declares_angle (declares_fiducial_id.mp fid)
  · rw [if_neg object]
    refine iff_of_true (fun name read => ?_) fun h => absurd h object
    rcases List.mem_append.mp read with first | size
    · rcases List.mem_cons.mp first with rfl | first
      · exact id
      · exact at_ name first
    · split at size
      · rename_i sized
        exact declares_of_tag "size" ["width", "height"] (by decide) sized.2 size
      · cases size

/-- The type of all messages, when the frames are still to come. -/
def final (s : Tuio wire) (frames : List (Frame P)) : TuioType := if s.type = .unknown then layout frames else s.type

variable {frames : List (Frame P)}

theorem readsDeclared_iff (tracked : ∀ blob ∈ frame.blobs, Tracked blob) :
    ReadsDeclared s frame ↔ (used s frame = .object → Objects frame) := by
  have each := forall₂_congr fun blob member => (tracked blob member).declares_iff (used s frame) frame.sendsize
  exact each.trans ⟨fun all object blob member => all blob member object, fun all blob member object => all object blob member⟩

theorem ReadsDeclared.next (declared : ReadsDeclared s frame) (tracked : ∀ blob ∈ frame.blobs, Tracked blob) :
    ∃ t, notifyData wire s frame = some t :=
  Option.isSome_iff_exists.mp (notifyData_isSome.mpr fun blob member => (tracked blob member).complete (declared blob member))

theorem used_eq_final (decided : used s frame ≠ .unknown) (rest : List (Frame P)) :
    final s (frame :: rest) = used s frame := by
  unfold final
  unfold used at decided ⊢
  by_cases unknown : s.type = .unknown
  · rw [if_pos unknown] at decided ⊢
    rw [if_pos unknown]
    cases first : frame.blobs.head? with
    | none =>
      rw [first] at decided
      exact absurd rfl decided
    | some blob => exact layout_eq (show described ([] : List (Frame P)) = [] from rfl) first
  · rw [if_neg unknown, if_neg unknown]

theorem used_known (tracked : ∀ blob ∈ frame.blobs, Tracked blob) {blob : Container P} (member : blob ∈ frame.blobs) :
    used s frame ≠ .unknown := by
  unfold used
  split
  · cases blobs : frame.blobs with
    | nil =>
      rw [blobs] at member
      cases member
    | cons first others =>
      obtain ⟨kind, probed, known⟩ := (tracked first (by rw [blobs]; exact List.mem_cons_self)).probe
      rw [List.head?_cons, Option.bind_some, probed]
      exact known
  · assumption

theorem final_next (tracked : ∀ blob ∈ frame.blobs, Tracked blob) (next : t.type = used s frame) (rest : List (Frame P)) :
    final t rest = final s (frame :: rest) := by
  by_cases decided : used s frame = .unknown
  · have empty : frame.blobs = [] := List.eq_nil_iff_forall_not_mem.mpr fun blob member => used_known tracked member decided
    have unknown : s.type = .unknown := by
      by_contra known
      exact known ((used_of_known known).symm.trans decided)
    rw [final, final, next, decided, unknown, if_pos rfl, if_pos rfl, layout, layout, List.flatMap_cons, empty, List.nil_append]
  · rw [used_eq_final decided, final, next, if_neg decided]

/-- A frame with another kind of blobs is laid out in the way that was decided before it. -/
theorem allowed_iff (tracked : ∀ frame ∈ frames, ∀ blob ∈ frame.blobs, Tracked blob) (s : Tuio wire) :
    Machine.Allowed (notifyData wire) ReadsDeclared s frames ↔ (final s frames = .object → ∀ frame ∈ frames, Objects frame) := by
  induction frames generalizing s with
  | nil => exact iff_of_true trivial fun _ => List.forall_mem_nil _
  | cons frame rest ih =>
    obtain ⟨now, later⟩ := List.forall_mem_cons.mp tracked
    have follows (t : Tuio wire) (next : notifyData wire s frame = some t) := final_next now (notifyData_type next) rest
    constructor
    · rintro ⟨declared, allowed⟩ object
      obtain ⟨t, next⟩ := declared.next now
      have others := (ih later t).mp (allowed t next) ((follows t next).trans object)
      refine List.forall_mem_cons.mpr ⟨fun blob member => ?_, others⟩
      have same := used_eq_final (used_known now member (s := s)) rest
      exact (readsDeclared_iff now).mp declared (same.symm.trans object) blob member
    · intro objects
      refine ⟨(readsDeclared_iff now).mpr fun object => ?_, fun t next => (ih later t).mpr fun object => ?_⟩
      · have decided : used s frame ≠ .unknown := by
          rw [object]
          decide
        exact (List.forall_mem_cons.mp (objects ((used_eq_final decided rest).trans object))).1
      · exact (List.forall_mem_cons.mp (objects ((follows t next).symm.trans object))).2

/-- A started module reads what the blobs declare, in every frame, exactly when it is cursors that it sends or objects that it gets. -/
theorem reads_declared_iff (wire : Wire P) (frames : List (Frame P)) (tracked : ∀ frame ∈ frames, ∀ blob ∈ frame.blobs, Tracked blob) :
    Machine.Allowed (notifyData wire) ReadsDeclared (start wire) frames ↔
      (layout frames = .object → ∀ frame ∈ frames, Objects frame) :=
  allowed_iff tracked (start wire)

/-- Such a run never stops for want of a property. -/
theorem allowed_goes {s : Tuio wire} (tracked : ∀ frame ∈ frames, ∀ blob ∈ frame.blobs, Tracked blob)
    (allowed : Machine.Allowed (notifyData wire) ReadsDeclared s frames) : ∃ t, Machine.attempt (notifyData wire) s frames = some t := by
  induction frames generalizing s with
  | nil => exact ⟨s, rfl⟩
  | cons frame rest ih =>
    obtain ⟨now, later⟩ := List.forall_mem_cons.mp tracked
    obtain ⟨t, next⟩ := allowed.1.next now
    rw [Machine.attempt, next]
    exact ih later (allowed.2 t next)

def fiducial : Container Platform.whole :=
  Blobs.container
    [("implements", Blobs.text "fiducial,pos,tracked"), ("fiducial_id", .integer 4), ("blob_id", .integer 4), ("x", .double (0 : Int)),
      ("y", .double (1 : Int)), ("angle", .double (0 : Int)), ("leaf_size", .double (2 : Int)), ("root_size", .double (3 : Int))]

theorem touch_tracked : Tracked touch := by
  refine ⟨by decide, by decide, Honours.declared ?_ (by decide) fun markerless => absurd markerless (by decide)⟩
  unfold Honours
  decide

theorem fiducial_tracked : Tracked fiducial := by
  refine ⟨by decide, by decide, Honours.declared ?_ (by decide) fun markerless => absurd markerless (by decide)⟩
  unfold Honours
  decide

/-- The tracker of the fiducials is replaced by one of touches. -/
def replaced : List (Frame Platform.whole) := [⟨true, [fiducial]⟩, ⟨true, [touch]⟩]

theorem touch_laid_out_as_object :
    (∀ frame ∈ replaced, ∀ blob ∈ frame.blobs, Tracked blob) ∧
    ¬ Machine.Allowed (notifyData wholeWire) ReadsDeclared (start wholeWire) replaced ∧
    (Machine.attempt (notifyData wholeWire) (start wholeWire) (replaced.take 1)).isSome = true ∧
    (Machine.attempt (notifyData wholeWire) (start wholeWire) replaced).isNone = true := by
  refine ⟨?_, ?_, ?_, ?_⟩
  · simp [replaced, fiducial_tracked, touch_tracked]
  · decide
  · rfl
  · rfl

theorem touches_read_declared :
    (∀ frame ∈ touches, ∀ blob ∈ frame.blobs, Tracked blob) ∧
    (Machine.Allowed (notifyData wholeWire) ReadsDeclared (start wholeWire) touches ↔
      (layout touches = .object → ∀ frame ∈ touches, Objects frame)) := by
  have tracked : ∀ frame ∈ touches, ∀ blob ∈ frame.blobs, Tracked blob := by simp [touches, touch_tracked]
  exact ⟨tracked, reads_declared_iff wholeWire touches tracked⟩

end Output.Tuio

end Movid
