import Mathlib.Data.List.Destutter
import Movid.Output.Tuio

/-!
# TUIO 2 messages

`moTuio2Module::notifyData` makes a bundle of every frame. Only a bundle with packed blobs is
sent.
-/

namespace Movid.Output

open Preset (Platform Value)

variable {P : Platform} (wire : Wire P)

/-- What `notifyData` reads: the clock and the list on the input. -/
structure Frame2 (P : Platform) where
  time : Int32
  blobs : List (Container P)

/-- `sent` is what `osc` has sent so far. -/
structure Tuio2 (wire : Wire P) where
  frame : Int32
  sent : List (Bundle wire.Float)

namespace Tuio2

inductive Format where
  | unknown
  | cursor
  | fiducial
  deriving DecidableEq

def start : Tuio2 wire := { frame := 0, sent := [] }

/-- The alive ids and the relations that the first loop collects. -/
structure Scan where
  alive : List Int32
  mapNodeBlob : Int32 → Int32
  haveRelation : Bool
  idsBlob : List Int32
  idsParent : List Int32

def Scan.empty : Scan :=
  { alive := [], mapNodeBlob := fun _ => 0, haveRelation := false, idsBlob := [], idsParent := [] }

/-- `parent_node_id` is not mandatory. -/
def Scan.node (s : Scan) (blob : Container P) (idBlob nodeId : Int32) : Scan :=
  let s := { s with mapNodeBlob := Function.update s.mapNodeBlob nodeId idBlob }
  match blob.integer "parent_node_id" with
  | none => s
  | some parent =>
    { s with haveRelation := true, idsBlob := s.idsBlob ++ [idBlob], idsParent := s.idsParent ++ [parent] }

def Scan.visit (s : Scan) (blob : Container P) : Option Scan := do
  let implements ← blob.implements
  let tracked ← Container.inTags "tracked" implements
  if tracked then
    let idBlob ← blob.integer "blob_id"
    let s := { s with alive := s.alive ++ [idBlob] }
    let node ← Container.inTags "node" implements
    if node then
      let nodeId ← blob.integer "node_id"
      some (s.node blob idBlob nodeId)
    else some s
  else some s

def probe : List (Container P) → Option Format
  | [] => some .unknown
  | blob :: _ => do
    let implements ← blob.implements
    let fiducial ← Container.inTags "fiducial" implements
    some (if fiducial then .fiducial else .cursor)

def ptr (blob : Container P) : Option (Message wire.Float) := do
  let s ← int wire blob "blob_id"
  let x ← float wire blob "x"
  let y ← float wire blob "y"
  some { path := "/tuio2/ptr".toList, args := [s, .int 1, s, x, y, .int 0, .int 1] }

def bnd (blob : Container P) : Option (Message wire.Float) := do
  let s ← int wire blob "blob_id"
  let x ← float wire blob "x"
  let y ← float wire blob "y"
  let w ← float wire blob "width"
  let h ← float wire blob "height"
  some { path := "/tuio2/bnd".toList, args := [s, x, y, .float wire.zero, w, h, .float wire.one] }

def packBlob (blob : Container P) : Option (List (Message wire.Float)) := do
  let pointer ← ptr wire blob
  let implements ← blob.implements
  let size ← Container.inTags "size" implements
  if size then
    let bounds ← bnd wire blob
    some [pointer, bounds]
  else some [pointer]

def packFiducial (blob : Container P) : Option (List (Message wire.Float)) := do
  let s ← int wire blob "blob_id"
  let x ← float wire blob "x"
  let y ← float wire blob "y"
  let a ← float wire blob "angle"
  some [{ path := "/tuio2/tok".toList, args := [s, s, s, x, y, a] }]

def packItem : Format → Container P → Option (List (Message wire.Float))
  | .fiducial => packFiducial wire
  | _ => packBlob wire

/-- No message is packed if the format is unknown. -/
def pack (format : Format) (blobs : List (Container P)) : Option (List (Message wire.Float)) :=
  if format = .unknown then some [] else (blobs.mapM (packItem wire format)).map List.flatten

def child (parent : Int32) (blob : Container P) : Option (List Int32) := do
  let implements ← blob.implements
  let node ← Container.inTags "node" implements
  if node && blob.integer "parent_node_id" = some parent then
    let id ← blob.integer "blob_id"
    some [id]
  else some []

def coa (scan : Scan) (blobs : List (Container P)) (parent : Int32) : Option (Message wire.Float) :=
  (blobs.mapM (child parent)).map fun children =>
    { path := "/tuio2/coa".toList
      args := .int (scan.mapNodeBlob parent) :: .int 0 :: children.flatten.map .int }

/-- `unique()` drops an entry that equals the one before it. -/
def unique (ids : List Int32) : List Int32 := ids.destutter (· ≠ ·)

def relations (scan : Scan) (blobs : List (Container P)) : Option (List (Message wire.Float)) :=
  if scan.haveRelation then
    ((unique scan.idsParent).mapM (coa wire scan blobs)).map fun links =>
      { path := "/tuio2/ala".toList
        args := (((unique scan.idsParent).map scan.mapNodeBlob) ++ unique scan.idsBlob).map .int } :: links
  else some []

/-- `moTuio2Module::notifyData`, once the module is started. -/
def notifyData (s : Tuio2 wire) (frame : Frame2 P) : Option (Tuio2 wire) := do
  let scan ← frame.blobs.foldlM Scan.visit Scan.empty
  let format ← probe frame.blobs
  let packed ← pack wire format frame.blobs
  let links ← relations wire scan frame.blobs
  let bundle := { path := "/tuio2/frm".toList, args := [.int s.frame, .int frame.time, .text "movid".toList] } ::
    { path := "/tuio2/alv".toList, args := scan.alive.map .int } :: (packed ++ links)
  some { frame := s.frame + 1, sent := if format = .unknown then s.sent else s.sent ++ [bundle] }

def sends (blobs : List (Container P)) : Bool := !blobs.isEmpty

/-- The ids of the last alive message that was sent. -/
def announced {wire : Wire P} (s : Tuio2 wire) : List Int32 :=
  ((s.sent.flatten.filter (·.path = "/tuio2/alv".toList)).getLast?.map Message.ints).getD []

def trackedIds (blobs : List (Container P)) : List Int32 :=
  blobs.filterMap fun blob => if "tracked".toList ∈ blob.tags then blob.integer "blob_id" else none

def reads (format : Format) (blob : Container P) : List String :=
  ["implements", "blob_id", "x", "y"] ++
    (if format = .fiducial then ["angle"]
    else if "size".toList ∈ blob.tags then ["width", "height"] else []) ++
    if "tracked".toList ∈ blob.tags ∧ "node".toList ∈ blob.tags then ["node_id"] else []

/-- A list of blobs is packed after its first. -/
def formatOf (blobs : List (Container P)) : Format :=
  if ∃ blob ∈ blobs.head?, "fiducial".toList ∈ blob.tags then .fiducial else .cursor

def Readable (blobs : List (Container P)) : Prop :=
  ∀ blob ∈ blobs, ∀ name ∈ reads (formatOf blobs) blob, blob.hasProperty name = true

/-! ### Which blobs can be read -/

section Blob

variable {blob : Container P}

theorem isSome_int (name : String) : (int wire blob name).isSome = blob.hasProperty name := by
  rw [int, Option.isSome_map, Container.integer_isSome]

theorem isSome_float (name : String) : (float wire blob name).isSome = blob.hasProperty name := Option.isSome_map

theorem visit_isSome (s : Scan) : (s.visit blob).isSome ↔ blob.hasProperty "implements" ∧
    ("tracked".toList ∈ blob.tags → blob.hasProperty "blob_id" ∧
      ("node".toList ∈ blob.tags → blob.hasProperty "node_id")) := by
  unfold Scan.visit
  rw [← Container.implements_isSome, ← Container.integer_isSome, ← Container.integer_isSome]
  cases found : blob.implements with
  | none => simp
  | some implements =>
    rw [Container.tags_eq found]
    simp only [Option.bind_eq_bind, Option.bind_some, Container.inTags_eq, decide_eq_true_eq, Option.isSome_some, true_and]
    by_cases tracked : "tracked".toList ∈ Utils.fields implements [',']
    · by_cases node : "node".toList ∈ Utils.fields implements [',']
      · simp only [tracked, node, true_imp_iff, if_true]
        cases blob.integer "blob_id" <;> cases blob.integer "node_id" <;> simp
      · simp only [tracked, node, true_imp_iff, false_imp_iff, if_true, if_false]
        cases blob.integer "blob_id" <;> simp
    · simp only [tracked, false_imp_iff, if_false]
      simp

theorem ptr_isSome : (ptr wire blob).isSome ↔
    blob.hasProperty "blob_id" ∧ blob.hasProperty "x" ∧ blob.hasProperty "y" := by
  rw [← isSome_int wire, ← isSome_float wire "x", ← isSome_float wire "y", ptr]
  cases int wire blob "blob_id" <;> cases float wire blob "x" <;> cases float wire blob "y" <;> simp

theorem bnd_isSome : (bnd wire blob).isSome ↔ blob.hasProperty "blob_id" ∧ blob.hasProperty "x" ∧ blob.hasProperty "y" ∧
    blob.hasProperty "width" ∧ blob.hasProperty "height" := by
  rw [← isSome_int wire, ← isSome_float wire "x", ← isSome_float wire "y", ← isSome_float wire "width",
    ← isSome_float wire "height", bnd]
  cases int wire blob "blob_id" <;> cases float wire blob "x" <;> cases float wire blob "y" <;>
    cases float wire blob "width" <;> cases float wire blob "height" <;> simp

theorem packBlob_isSome : (packBlob wire blob).isSome ↔ blob.hasProperty "implements" ∧ blob.hasProperty "blob_id" ∧
    blob.hasProperty "x" ∧ blob.hasProperty "y" ∧
    ("size".toList ∈ blob.tags → blob.hasProperty "width" ∧ blob.hasProperty "height") := by
  have pointer : (ptr wire blob).isSome ↔ _ := ptr_isSome wire
  have bounds : (bnd wire blob).isSome ↔ _ := bnd_isSome wire
  unfold packBlob
  rw [← Container.implements_isSome]
  cases found : blob.implements with
  | none => cases ptr wire blob <;> simp
  | some implements =>
    rw [Container.tags_eq found]
    simp only [Option.bind_eq_bind, Option.bind_some, Container.inTags_eq, decide_eq_true_eq, Option.isSome_some, true_and]
    by_cases size : "size".toList ∈ Utils.fields implements [',']
    · simp only [size, true_imp_iff, if_true]
      cases made : ptr wire blob <;> cases made' : bnd wire blob <;> simp_all
    · simp only [size, false_imp_iff, if_false]
      cases made : ptr wire blob <;> simp_all

theorem packFiducial_isSome : (packFiducial wire blob).isSome ↔ blob.hasProperty "blob_id" ∧
    blob.hasProperty "x" ∧ blob.hasProperty "y" ∧ blob.hasProperty "angle" := by
  rw [← isSome_int wire, ← isSome_float wire "x", ← isSome_float wire "y", ← isSome_float wire "angle", packFiducial]
  cases int wire blob "blob_id" <;> cases float wire blob "x" <;> cases float wire blob "y" <;>
    cases float wire blob "angle" <;> simp

theorem child_isSome (parent : Int32) (implements : blob.hasProperty "implements") (id : blob.hasProperty "blob_id") :
    (child parent blob).isSome := by
  obtain ⟨implements, found⟩ := Option.isSome_iff_exists.mp (blob.implements_isSome.trans implements)
  obtain ⟨id, known⟩ := Option.isSome_iff_exists.mp ((blob.integer_isSome "blob_id").trans id)
  unfold child
  simp only [found, known, Container.inTags_eq, Option.bind_eq_bind, Option.bind_some]
  split <;> rfl

end Blob

theorem Readable.basic {blobs : List (Container P)} (readable : Readable blobs) {name : String}
    (read : name ∈ ["implements", "blob_id", "x", "y"]) : ∀ blob ∈ blobs, blob.hasProperty name := fun blob member =>
  readable blob member name (List.mem_append_left _ (List.mem_append_left _ read))

theorem Readable.implements {blobs : List (Container P)} (readable : Readable blobs) :
    ∀ blob ∈ blobs, blob.hasProperty "implements" := readable.basic (by simp)

theorem Readable.id {blobs : List (Container P)} (readable : Readable blobs) :
    ∀ blob ∈ blobs, blob.hasProperty "blob_id" := readable.basic (by simp)

theorem formatOf_cons (blob : Container P) (rest : List (Container P)) :
    formatOf (blob :: rest) = if "fiducial".toList ∈ blob.tags then .fiducial else .cursor := by
  unfold formatOf
  by_cases fiducial : "fiducial".toList ∈ blob.tags
  · rw [if_pos ⟨blob, rfl, fiducial⟩, if_pos fiducial]
  · rw [if_neg, if_neg fiducial]
    rintro ⟨first, head, tagged⟩
    cases head
    exact fiducial tagged

theorem formatOf_cases (blobs : List (Container P)) : formatOf blobs = .fiducial ∨ formatOf blobs = .cursor := by
  unfold formatOf
  split
  · exact Or.inl rfl
  · exact Or.inr rfl

theorem formatOf_ne_unknown (blobs : List (Container P)) : formatOf blobs ≠ .unknown := by
  rcases formatOf_cases blobs with format | format <;> simp [format]

theorem forall_mem_ite {α : Type} {c : Prop} [Decidable c] {l : List α} {p : α → Prop} :
    (∀ a ∈ if c then l else [], p a) ↔ (c → ∀ a ∈ l, p a) := by
  split <;> simp [*]

theorem readable_iff (blobs : List (Container P)) : Readable blobs ↔
    ∀ blob ∈ blobs, (Scan.empty.visit blob).isSome ∧ (packItem wire (formatOf blobs) blob).isSome := by
  apply forall₂_congr
  intro blob _
  simp only [visit_isSome, reads, List.forall_mem_append, forall_mem_ite, List.forall_mem_cons, List.not_mem_nil,
    false_imp_iff, implies_true, and_true]
  rcases formatOf_cases blobs with format | format
  · rw [format, packItem, packFiducial_isSome, if_pos rfl, List.forall_mem_singleton]
    constructor
    · rintro ⟨⟨⟨implements, id, x, y⟩, angle⟩, node⟩
      exact ⟨⟨implements, fun tracked => ⟨id, fun tag => node ⟨tracked, tag⟩⟩⟩, id, x, y, angle⟩
    · rintro ⟨⟨implements, node⟩, id, x, y, angle⟩
      exact ⟨⟨⟨implements, id, x, y⟩, angle⟩, fun tags => (node tags.1).2 tags.2⟩
  · have packed : (packItem wire .cursor blob).isSome ↔ _ := packBlob_isSome wire
    rw [format, packed, if_neg (by decide), forall_mem_ite, List.forall_mem_cons, List.forall_mem_singleton]
    constructor
    · rintro ⟨⟨⟨implements, id, x, y⟩, size⟩, node⟩
      exact ⟨⟨implements, fun tracked => ⟨id, fun tag => node ⟨tracked, tag⟩⟩⟩, implements, id, x, y, size⟩
    · rintro ⟨⟨implements, node⟩, -, id, x, y, size⟩
      exact ⟨⟨⟨implements, id, x, y⟩, size⟩, fun tags => (node tags.1).2 tags.2⟩

/-! ### One frame -/

theorem visit_alive {s t : Scan} {blob : Container P} (visited : s.visit blob = some t) :
    t.alive = s.alive ++ trackedIds [blob] := by
  unfold Scan.visit at visited
  obtain ⟨implements, found, visited⟩ := Option.bind_eq_some_iff.mp visited
  rw [Container.inTags_eq, Option.bind_eq_bind, Option.bind_some] at visited
  have tags := Container.tags_eq found
  by_cases tracked : "tracked".toList ∈ blob.tags
  · rw [← tags, if_pos (decide_eq_true tracked)] at visited
    obtain ⟨id, known, visited⟩ := Option.bind_eq_some_iff.mp visited
    have ids : trackedIds [blob] = [id] := by
      rw [trackedIds, List.filterMap_cons, if_pos tracked, known]
      rfl
    rw [Container.inTags_eq, Option.bind_eq_bind, Option.bind_some] at visited
    rw [ids]
    split at visited
    · obtain ⟨node, -, visited⟩ := Option.bind_eq_some_iff.mp visited
      cases visited
      unfold Scan.node
      cases blob.integer "parent_node_id" <;> rfl
    · cases visited
      rfl
  · rw [← tags, if_neg (ne_true_of_eq_false (decide_eq_false tracked))] at visited
    cases visited
    have ids : trackedIds [blob] = [] := by
      rw [trackedIds, List.filterMap_cons, if_neg tracked]
      rfl
    rw [ids, List.append_nil]

theorem trackedIds_cons (blob : Container P) (rest : List (Container P)) :
    trackedIds (blob :: rest) = trackedIds [blob] ++ trackedIds rest :=
  List.filterMap_append (l := [blob])

theorem scan_alive {blobs : List (Container P)} {s t : Scan} (scanned : blobs.foldlM Scan.visit s = some t) :
    t.alive = s.alive ++ trackedIds blobs := by
  induction blobs generalizing s with
  | nil =>
    cases scanned
    exact (List.append_nil _).symm
  | cons blob rest ih =>
    rw [List.foldlM_cons] at scanned
    obtain ⟨next, visited, scanned⟩ := Option.bind_eq_some_iff.mp scanned
    rw [ih scanned, visit_alive visited, List.append_assoc, ← trackedIds_cons]

/-- The paths of the messages for single blobs. -/
def itemPaths : List Str := ["/tuio2/ptr".toList, "/tuio2/bnd".toList, "/tuio2/tok".toList]

theorem ptr_path {blob : Container P} {m : Message wire.Float} (made : ptr wire blob = some m) : m.path = "/tuio2/ptr".toList := by
  unfold ptr at made
  obtain ⟨s, -, made⟩ := Option.bind_eq_some_iff.mp made
  obtain ⟨x, -, made⟩ := Option.bind_eq_some_iff.mp made
  obtain ⟨y, -, made⟩ := Option.bind_eq_some_iff.mp made
  cases made
  rfl

theorem bnd_path {blob : Container P} {m : Message wire.Float} (made : bnd wire blob = some m) : m.path = "/tuio2/bnd".toList := by
  unfold bnd at made
  obtain ⟨s, -, made⟩ := Option.bind_eq_some_iff.mp made
  obtain ⟨x, -, made⟩ := Option.bind_eq_some_iff.mp made
  obtain ⟨y, -, made⟩ := Option.bind_eq_some_iff.mp made
  obtain ⟨w, -, made⟩ := Option.bind_eq_some_iff.mp made
  obtain ⟨h, -, made⟩ := Option.bind_eq_some_iff.mp made
  cases made
  rfl

theorem packBlob_paths {blob : Container P} {ms : List (Message wire.Float)} (made : packBlob wire blob = some ms) :
    ∀ m ∈ ms, m.path ∈ itemPaths := by
  unfold packBlob at made
  obtain ⟨pointer, first, made⟩ := Option.bind_eq_some_iff.mp made
  obtain ⟨implements, -, made⟩ := Option.bind_eq_some_iff.mp made
  obtain ⟨size, -, made⟩ := Option.bind_eq_some_iff.mp made
  have pointed : pointer.path ∈ itemPaths := by
    rw [ptr_path wire first]
    decide
  cases size with
  | false =>
    cases made
    exact List.forall_mem_singleton.mpr pointed
  | true =>
    obtain ⟨bounds, second, made⟩ := Option.bind_eq_some_iff.mp made
    cases made
    refine List.forall_mem_cons.mpr ⟨pointed, List.forall_mem_singleton.mpr ?_⟩
    rw [bnd_path wire second]
    decide

theorem packFiducial_paths {blob : Container P} {ms : List (Message wire.Float)} (made : packFiducial wire blob = some ms) :
    ∀ m ∈ ms, m.path ∈ itemPaths := by
  unfold packFiducial at made
  obtain ⟨s, -, made⟩ := Option.bind_eq_some_iff.mp made
  obtain ⟨x, -, made⟩ := Option.bind_eq_some_iff.mp made
  obtain ⟨y, -, made⟩ := Option.bind_eq_some_iff.mp made
  obtain ⟨a, -, made⟩ := Option.bind_eq_some_iff.mp made
  cases made
  exact List.forall_mem_singleton.mpr (show "/tuio2/tok".toList ∈ itemPaths by decide)

theorem pack_paths {format : Format} {blobs : List (Container P)} {ms : List (Message wire.Float)}
    (made : pack wire format blobs = some ms) : ∀ m ∈ ms, m.path ∈ itemPaths := by
  unfold pack at made
  split at made
  · cases made
    exact fun m none => absurd none List.not_mem_nil
  · obtain ⟨parts, each, rfl⟩ := Option.map_eq_some_iff.mp made
    intro m member
    obtain ⟨part, inside, here⟩ := List.mem_flatten.mp member
    obtain ⟨blob, -, packed⟩ := Lists.forall₂_mem_right (Lists.forall₂_of_mapM each) inside
    cases format with
    | fiducial => exact packFiducial_paths wire packed m here
    | cursor => exact packBlob_paths wire packed m here
    | unknown => exact packBlob_paths wire packed m here

def Quiet {F : Type} (messages : List (Message F)) : Prop := ∀ m ∈ messages, m.path ≠ "/tuio2/alv".toList

theorem pack_quiet {format : Format} {blobs : List (Container P)} {ms : List (Message wire.Float)}
    (made : pack wire format blobs = some ms) : Quiet ms := by
  intro m member alive
  have path := pack_paths wire made m member
  rw [alive] at path
  exact absurd path (by decide)

theorem relations_quiet {scan : Scan} {blobs : List (Container P)} {ms : List (Message wire.Float)}
    (made : relations wire scan blobs = some ms) : Quiet ms := by
  unfold relations at made
  split at made
  · obtain ⟨links, each, rfl⟩ := Option.map_eq_some_iff.mp made
    refine List.forall_mem_cons.mpr ⟨show "/tuio2/ala".toList ≠ _ by decide, fun m member => ?_⟩
    obtain ⟨parent, -, link⟩ := Lists.forall₂_mem_right (Lists.forall₂_of_mapM each) member
    obtain ⟨children, -, rfl⟩ := Option.map_eq_some_iff.mp link
    show "/tuio2/coa".toList ≠ _
    decide
  · cases made
    exact fun m none => absurd none List.not_mem_nil

theorem filter_quiet {F : Type} {ms : List (Message F)} (quiet : Quiet ms) :
    ms.filter (·.path = "/tuio2/alv".toList) = [] :=
  List.filter_eq_nil_iff.mpr fun m member => by simpa only [decide_eq_true_eq] using quiet m member

theorem probe_eq {blobs : List (Container P)} (present : ∀ blob ∈ blobs, blob.hasProperty "implements") :
    probe blobs = some (if blobs = [] then .unknown else formatOf blobs) := by
  cases blobs with
  | nil => rfl
  | cons blob rest =>
    have found := blob.implements_isSome.trans (present blob List.mem_cons_self)
    obtain ⟨implements, found⟩ := Option.isSome_iff_exists.mp found
    rw [if_neg (List.cons_ne_nil _ _), formatOf_cons]
    simp only [probe, found, Container.inTags_eq, ← Container.tags_eq found, Option.bind_eq_bind, Option.bind_some,
      decide_eq_true_eq]

theorem announced_send {s : Tuio2 wire} {ids : List Int32} {first : Message wire.Float} {rest : List (Message wire.Float)}
    (quiet : first.path ≠ "/tuio2/alv".toList) (quiet' : Quiet rest) (frame : Int32) :
    announced { frame, sent := s.sent ++ [first :: { path := "/tuio2/alv".toList, args := ids.map .int } :: rest] } = ids := by
  have one : (first :: { path := "/tuio2/alv".toList, args := ids.map .int } :: rest).filter
      (·.path = "/tuio2/alv".toList) = [{ path := "/tuio2/alv".toList, args := ids.map .int }] := by
    simp only [List.filter_cons, quiet, decide_false, decide_true, filter_quiet quiet', if_true, Bool.false_eq_true, if_false]
  unfold announced
  rw [List.flatten_append, List.filter_append, List.flatten_singleton, one, List.getLast?_concat]
  simp [Message.ints, List.filterMap_map]

theorem notifyData_announced {s t : Tuio2 wire} {frame : Frame2 P} (readable : Readable frame.blobs)
    (done : notifyData wire s frame = some t) :
    announced t = if frame.blobs = [] then announced s else trackedIds frame.blobs := by
  have probed : probe frame.blobs = _ := probe_eq readable.implements
  unfold notifyData at done
  obtain ⟨scan, scanned, done⟩ := Option.bind_eq_some_iff.mp done
  rw [probed, Option.bind_eq_bind, Option.bind_some] at done
  obtain ⟨packed, quiet, done⟩ := Option.bind_eq_some_iff.mp done
  obtain ⟨links, quiet', done⟩ := Option.bind_eq_some_iff.mp done
  have alive : scan.alive = trackedIds frame.blobs := scan_alive scanned
  rw [← Option.some.inj done]
  by_cases empty : frame.blobs = []
  · rw [if_pos empty, if_pos empty, if_pos rfl]
    rfl
  · rw [if_neg empty, if_neg empty, if_neg (formatOf_ne_unknown _), ← alive]
    exact announced_send wire (show "/tuio2/frm".toList ≠ _ by decide)
      (List.forall_mem_append.mpr ⟨pack_quiet wire quiet, relations_quiet wire quiet'⟩) _

theorem scan_isSome {blobs : List (Container P)} (s : Scan) :
    (blobs.foldlM Scan.visit s).isSome ↔ ∀ blob ∈ blobs, (Scan.empty.visit blob).isSome := by
  have alike (s : Scan) (blob : Container P) : (s.visit blob).isSome ↔ (Scan.empty.visit blob).isSome :=
    (visit_isSome s).trans (visit_isSome Scan.empty).symm
  exact Lists.foldlM_isSome alike s

theorem pack_isSome {format : Format} (known : format ≠ .unknown) {blobs : List (Container P)} :
    (pack wire format blobs).isSome ↔ ∀ blob ∈ blobs, (packItem wire format blob).isSome := by
  rw [pack, if_neg known, Option.isSome_map, Lists.mapM_isSome]

theorem relations_isSome (scan : Scan) {blobs : List (Container P)} (readable : Readable blobs) :
    (relations wire scan blobs).isSome := by
  unfold relations
  split
  · rw [Option.isSome_map, Lists.mapM_isSome]
    intro parent _
    rw [coa, Option.isSome_map, Lists.mapM_isSome]
    exact fun blob member => child_isSome parent (readable.implements blob member) (readable.id blob member)
  · rfl

theorem notifyData_isSome (s : Tuio2 wire) (frame : Frame2 P) : (notifyData wire s frame).isSome ↔ Readable frame.blobs := by
  constructor
  · intro done
    obtain ⟨t, done⟩ := Option.isSome_iff_exists.mp done
    obtain ⟨scan, scanned, done⟩ := Option.bind_eq_some_iff.mp done
    obtain ⟨format, probed, done⟩ := Option.bind_eq_some_iff.mp done
    obtain ⟨packed, made, done⟩ := Option.bind_eq_some_iff.mp done
    have visits := (scan_isSome Scan.empty).mp (Option.isSome_iff_exists.mpr ⟨scan, scanned⟩)
    have present : ∀ blob ∈ frame.blobs, blob.hasProperty "implements" := fun blob member =>
      ((visit_isSome _).mp (visits blob member)).1
    rw [probe_eq present] at probed
    cases probed
    by_cases empty : frame.blobs = []
    · rw [empty]
      exact fun blob none => absurd none List.not_mem_nil
    · rw [if_neg empty] at made
      have packs := (pack_isSome wire (formatOf_ne_unknown _)).mp (Option.isSome_iff_exists.mpr ⟨packed, made⟩)
      exact (readable_iff wire _).mpr fun blob member => ⟨visits blob member, packs blob member⟩
  · intro readable
    have parts := (readable_iff wire _).mp readable
    obtain ⟨scan, scanned⟩ := Option.isSome_iff_exists.mp ((scan_isSome Scan.empty).mpr fun blob member => (parts blob member).1)
    have probed : probe frame.blobs = _ := probe_eq readable.implements
    obtain ⟨links, linked⟩ := Option.isSome_iff_exists.mp (relations_isSome wire scan readable)
    obtain ⟨packed, made⟩ : ∃ packed,
        pack wire (if frame.blobs = [] then .unknown else formatOf frame.blobs) frame.blobs = some packed := by
      split
      · exact ⟨[], rfl⟩
      · exact Option.isSome_iff_exists.mp ((pack_isSome wire (formatOf_ne_unknown _)).mpr fun blob member =>
          (parts blob member).2)
    unfold notifyData
    rw [scanned, probed, Option.bind_eq_bind, Option.bind_some, Option.bind_eq_bind, Option.bind_some, made, linked]
    rfl

theorem notifyData_sends {s t : Tuio2 wire} {frame : Frame2 P} (done : notifyData wire s frame = some t) :
    t.sent.length = s.sent.length + (sends frame.blobs).toNat := by
  have readable := (notifyData_isSome wire s frame).mp (Option.isSome_iff_exists.mpr ⟨t, done⟩)
  unfold notifyData at done
  obtain ⟨scan, -, done⟩ := Option.bind_eq_some_iff.mp done
  rw [probe_eq readable.implements, Option.bind_eq_bind, Option.bind_some] at done
  obtain ⟨packed, -, done⟩ := Option.bind_eq_some_iff.mp done
  obtain ⟨links, -, done⟩ := Option.bind_eq_some_iff.mp done
  rw [← Option.some.inj done]
  unfold sends
  cases frame.blobs with
  | nil => rfl
  | cons blob rest =>
    rw [if_neg (List.cons_ne_nil _ _), if_neg (formatOf_ne_unknown _), List.length_append]
    rfl

/-! ### Runs -/

/-- The blobs of the last frame that has any. -/
def lastBlobs (frames : List (Frame2 P)) : List (Container P) :=
  frames.foldl (fun last frame => if frame.blobs = [] then last else frame.blobs) []

theorem lastBlobs_concat (frames : List (Frame2 P)) (frame : Frame2 P) :
    lastBlobs (frames ++ [frame]) = if frame.blobs = [] then lastBlobs frames else frame.blobs := by
  unfold lastBlobs
  rw [List.foldl_append]
  rfl

theorem lastBlobs_readable {frames : List (Frame2 P)} (readable : ∀ frame ∈ frames, Readable frame.blobs) :
    Readable (lastBlobs frames) := by
  induction frames using List.reverseRecOn with
  | nil => exact fun blob none => absurd none List.not_mem_nil
  | append_singleton frames frame ih =>
    rw [lastBlobs_concat]
    split
    · exact ih fun f member => readable f (List.mem_append_left _ member)
    · exact readable frame (List.mem_append_right _ List.mem_cons_self)

theorem run_isSome (frames : List (Frame2 P)) :
    (Machine.attempt (notifyData wire) (start wire) frames).isSome ↔ ∀ frame ∈ frames, Readable frame.blobs :=
  Machine.attempt_isSome (notifyData_isSome wire) _ _

variable {wire}

theorem run_announced {frames : List (Frame2 P)} {s : Tuio2 wire}
    (reached : Machine.attempt (notifyData wire) (start wire) frames = some s) :
    announced s = trackedIds (lastBlobs frames) := by
  induction frames using List.reverseRecOn generalizing s with
  | nil =>
    cases reached
    rfl
  | append_singleton frames frame ih =>
    have readable := (run_isSome wire _).mp (Option.isSome_iff_exists.mpr ⟨s, reached⟩) frame
      (List.mem_append_right _ List.mem_cons_self)
    rw [Machine.attempt_append] at reached
    obtain ⟨t, before, step⟩ := Option.bind_eq_some_iff.mp reached
    obtain ⟨u, done, last⟩ := Option.bind_eq_some_iff.mp step
    cases last
    rw [notifyData_announced wire readable done, lastBlobs_concat]
    split
    · exact ih before
    · rfl

theorem trackedIds_eq_nil {blobs : List (Container P)} (readable : Readable blobs) :
    trackedIds blobs = [] ↔ ∀ blob ∈ blobs, "tracked".toList ∉ blob.tags := by
  rw [trackedIds, List.filterMap_eq_nil_iff]
  apply forall₂_congr
  intro blob member
  obtain ⟨id, known⟩ := Option.isSome_iff_exists.mp ((blob.integer_isSome "blob_id").trans (readable.id blob member))
  split
  · rename_i tracked
    simp only [known, tracked, not_true_eq_false, reduceCtorEq]
  · rename_i untracked
    simp only [untracked, not_false_eq_true]

variable (wire)

/-- After every frame the last alive message names the tracked blobs of the frame exactly if all
blobs can be read and no frame without blobs follows one that has tracked blobs. -/
theorem run_announces_iff (frames : List (Frame2 P)) :
    (∀ n frame, frames[n]? = some frame →
      ∃ s, Machine.attempt (notifyData wire) (start wire) (frames.take (n + 1)) = some s ∧
        announced s = trackedIds frame.blobs) ↔
    (∀ frame ∈ frames, Readable frame.blobs) ∧
      ∀ n frame, frames[n]? = some frame → frame.blobs = [] →
        ∀ blob ∈ lastBlobs (frames.take n), "tracked".toList ∉ blob.tags := by
  have take (n : ℕ) (frame : Frame2 P) (there : frames[n]? = some frame) : frames.take (n + 1) = frames.take n ++ [frame] := by
    rw [List.take_add_one, there]
    rfl
  constructor
  · intro announces
    have readable : ∀ frame ∈ frames, Readable frame.blobs := by
      intro frame member
      obtain ⟨n, there⟩ := List.mem_iff_getElem?.mp member
      obtain ⟨s, reached, -⟩ := announces n frame there
      refine (run_isSome wire _).mp (Option.isSome_iff_exists.mpr ⟨s, reached⟩) frame ?_
      rw [take n frame there]
      exact List.mem_append_right _ List.mem_cons_self
    refine ⟨readable, fun n frame there empty => ?_⟩
    obtain ⟨s, reached, same⟩ := announces n frame there
    have last := run_announced reached
    rw [take n frame there, lastBlobs_concat, if_pos empty, same, empty] at last
    exact (trackedIds_eq_nil (lastBlobs_readable fun f member => readable f (List.mem_of_mem_take member))).mp last.symm
  · rintro ⟨readable, quiet⟩ n frame there
    obtain ⟨s, reached⟩ := Option.isSome_iff_exists.mp
      ((run_isSome wire (frames.take (n + 1))).mpr fun f member => readable f (List.mem_of_mem_take member))
    refine ⟨s, reached, ?_⟩
    rw [run_announced reached, take n frame there, lastBlobs_concat]
    split
    · rename_i empty
      rw [empty]
      exact (trackedIds_eq_nil (lastBlobs_readable fun f member => readable f (List.mem_of_mem_take member))).mpr
        (quiet n frame there empty)
    · rfl

/-- The blob is gone in the second frame, and no message says so. -/
theorem lost_blob_announced : ¬ ∀ n frame,
    ([⟨0, [Tuio.touch]⟩, ⟨0, []⟩] : List (Frame2 Platform.whole))[n]? = some frame →
      ∃ s, Machine.attempt (notifyData Tuio.wholeWire) (start Tuio.wholeWire)
        (([⟨0, [Tuio.touch]⟩, ⟨0, []⟩] : List (Frame2 Platform.whole)).take (n + 1)) = some s ∧
        announced s = trackedIds frame.blobs := by
  intro announces
  obtain ⟨s, reached, same⟩ := announces 1 ⟨0, []⟩ rfl
  have last := run_announced reached
  rw [same] at last
  exact absurd last (by decide)

end Tuio2

end Movid.Output
