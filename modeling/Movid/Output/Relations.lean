import Movid.Output.Tuio2

/-!
# Which blobs belong together

The messages `/tuio2/ala` and `/tuio2/coa` name parents by blob ids, which `notifyData` looks up by node id. The
list of parents is made unique as `std::list` does it, that is, next to each other only.
-/

namespace Movid.Output.Tuio2

open Preset (Platform Value)

variable {P : Platform} {wire : Wire P}

/-! ### What the blobs say -/

def parentOf (blob : Container P) : Option Int32 :=
  if "node".toList ∈ blob.tags then blob.integer "parent_node_id" else none

/-- The node id of each parent, once for each child. -/
def parents (blobs : List (Container P)) : List Int32 := blobs.filterMap parentOf

def childIds (blobs : List (Container P)) : List Int32 :=
  blobs.filterMap fun blob => (parentOf blob).bind fun _ => blob.integer "blob_id"

/-- The blobs whose `parent_node_id` is the node. -/
def childrenOf (blobs : List (Container P)) (node : Int32) : List Int32 :=
  blobs.filterMap fun blob => if parentOf blob = some node then blob.integer "blob_id" else none

def nodeOf (blob : Container P) : Option Int32 :=
  if "node".toList ∈ blob.tags then blob.integer "node_id" else none

/-- The blobs that are the node. -/
def idsOf (blobs : List (Container P)) (node : Int32) : List Int32 :=
  blobs.filterMap fun blob => if nodeOf blob = some node then blob.integer "blob_id" else none

/-- What `map_node_blob` has for the node. -/
def stands (blobs : List (Container P)) (node : Int32) : Int32 := (idsOf blobs node).getLast?.getD 0

/-! ### What a bundle says -/

section Bundle

variable {F : Type} (bundle : Bundle F)

def withPath (path : String) : List (Message F) := bundle.filter (·.path = path.toList)

def alive : List Int32 := (withPath bundle "/tuio2/alv").flatMap Message.ints

def ala : List Int32 := (withPath bundle "/tuio2/ala").flatMap Message.ints

def coas : List (Message F) := withPath bundle "/tuio2/coa"

end Bundle

/-- After the parent comes the slot. -/
def coaParent {F : Type} (m : Message F) : Option Int32 := m.ints.head?

def coaChildren {F : Type} (m : Message F) : List Int32 := m.ints.drop 2

def Names {F : Type} (ids : List Int32) (m : Message F) : Prop := ∃ id ∈ coaParent m, id ∈ ids

instance decidableNames {F : Type} (ids : List Int32) (m : Message F) : Decidable (Names ids m) :=
  inferInstanceAs (Decidable (∃ id ∈ coaParent m, id ∈ ids))

/-- The messages on relations are right for the blobs. -/
structure Associates {F : Type} (blobs : List (Container P)) (bundle : Bundle F) : Prop where
  ala : ∀ id ∈ ala bundle, id ∈ alive bundle
  coa : ∀ m ∈ coas bundle, ∀ id ∈ (coaParent m).toList ++ coaChildren m, id ∈ alive bundle
  once : (Tuio2.ala bundle).Nodup
  link : ∀ node ∈ parents blobs, ∃ m, (coas bundle).filter (Names (idsOf blobs node) ·) = [m] ∧ coaChildren m = childrenOf blobs node

/-- Every parent is there and no child itself, the children of a parent stand together, and ids are not shared. -/
structure Related (blobs : List (Container P)) : Prop where
  present : ∀ node ∈ parents blobs, idsOf blobs node ≠ []
  grouped : (unique (parents blobs)).Nodup
  rooted : ∀ node ∈ parents blobs, stands blobs node ∉ childIds blobs
  apart : ∀ node ∈ parents blobs, ∀ other ∈ parents blobs, node ≠ other → stands blobs other ∉ idsOf blobs node
  single : (unique (childIds blobs)).Nodup

/-! ### The first loop -/

theorem visit_relation {s t : Scan} {blob : Container P} (tracked : "tracked".toList ∈ blob.tags) (visited : s.visit blob = some t) :
    t.idsParent = s.idsParent ++ parents [blob] ∧ t.idsBlob = s.idsBlob ++ childIds [blob] ∧
      t.haveRelation = (s.haveRelation || !(parents [blob]).isEmpty) ∧
      ∀ node, t.mapNodeBlob node = (idsOf [blob] node).getLast?.getD (s.mapNodeBlob node) := by
  unfold Scan.visit at visited
  obtain ⟨implements, found, visited⟩ := Option.bind_eq_some_iff.mp visited
  have tags := Container.tags_eq found
  rw [Container.inTags_eq, Option.bind_eq_bind, Option.bind_some, ← tags, if_pos (decide_eq_true tracked)] at visited
  obtain ⟨id, known, visited⟩ := Option.bind_eq_some_iff.mp visited
  rw [Container.inTags_eq, Option.bind_eq_bind, Option.bind_some, ← tags] at visited
  by_cases node : "node".toList ∈ blob.tags
  · rw [if_pos (decide_eq_true node)] at visited
    obtain ⟨nodeId, nodeKnown, visited⟩ := Option.bind_eq_some_iff.mp visited
    cases visited
    have here : nodeOf blob = some nodeId := by rw [nodeOf, if_pos node, nodeKnown]
    have mapped : ∀ n, Function.update s.mapNodeBlob nodeId id n = (idsOf [blob] n).getLast?.getD (s.mapNodeBlob n) := by
      intro n
      by_cases same : n = nodeId
      · simp [same, idsOf, here, known]
      · simp [same, idsOf, here, Ne.symm same]
    cases parent : blob.integer "parent_node_id" with
    | none =>
      have orphan : parentOf blob = none := by rw [parentOf, if_pos node, parent]
      simp [Scan.node, parent, parents, childIds, orphan, mapped]
    | some p =>
      have child : parentOf blob = some p := by rw [parentOf, if_pos node, parent]
      simp [Scan.node, parent, parents, childIds, child, known, mapped]
  · rw [if_neg (ne_true_of_eq_false (decide_eq_false node))] at visited
    cases visited
    have orphan : parentOf blob = none := by rw [parentOf, if_neg node]
    have outside : nodeOf blob = none := by rw [nodeOf, if_neg node]
    simp [parents, childIds, orphan, idsOf, outside]

theorem scan_relation {blobs : List (Container P)} (tracked : ∀ blob ∈ blobs, "tracked".toList ∈ blob.tags) {s t : Scan}
    (scanned : blobs.foldlM Scan.visit s = some t) :
    t.idsParent = s.idsParent ++ parents blobs ∧ t.idsBlob = s.idsBlob ++ childIds blobs ∧
      t.haveRelation = (s.haveRelation || !(parents blobs).isEmpty) ∧
      ∀ node, t.mapNodeBlob node = (idsOf blobs node).getLast?.getD (s.mapNodeBlob node) := by
  induction blobs generalizing s with
  | nil =>
    cases scanned
    simp [parents, childIds, idsOf]
  | cons blob rest ih =>
    obtain ⟨first, others⟩ := List.forall_mem_cons.mp tracked
    rw [List.foldlM_cons] at scanned
    obtain ⟨next, visited, scanned⟩ := Option.bind_eq_some_iff.mp scanned
    obtain ⟨parent, child, relation, map⟩ := visit_relation first visited
    obtain ⟨parents', children', relation', map'⟩ := ih others scanned
    have cons : ∀ {β : Type} (f : Container P → Option β), (blob :: rest).filterMap f = [blob].filterMap f ++ rest.filterMap f :=
      fun f => List.filterMap_append (l := [blob])
    refine ⟨?_, ?_, ?_, fun node => ?_⟩
    · rw [parents', parent, List.append_assoc, parents, parents, ← cons]
      rfl
    · rw [children', child, List.append_assoc, childIds, childIds, ← cons]
      rfl
    · rw [relation', relation, Bool.or_assoc, parents, parents, parents, cons]
      cases List.filterMap parentOf [blob] with
      | nil => rfl
      | cons => rfl
    · rw [map', map, idsOf, idsOf, idsOf, cons, List.getLast?_append]
      cases (List.filterMap _ rest).getLast? with
      | none => rfl
      | some id => rfl

/-! ### The messages -/

theorem child_eq {node : Int32} {blob : Container P} {ids : List Int32} (made : child node blob = some ids) :
    ids = childrenOf [blob] node := by
  obtain ⟨implements, found, made⟩ := Option.bind_eq_some_iff.mp made
  rw [Container.inTags_eq, Option.bind_eq_bind, Option.bind_some, ← Container.tags_eq found] at made
  split at made
  · rename_i here
    obtain ⟨tag, parent⟩ := Bool.and_eq_true_iff.mp here
    have child : parentOf blob = some node := by
      rw [parentOf, if_pos (of_decide_eq_true tag)]
      exact of_decide_eq_true parent
    obtain ⟨id, known, made⟩ := Option.bind_eq_some_iff.mp made
    cases made
    simp [childrenOf, child, known]
  · rename_i other
    cases made
    have orphan : parentOf blob ≠ some node := by
      intro child
      rw [parentOf] at child
      split at child
      · rename_i tag
        exact other (Bool.and_eq_true_iff.mpr ⟨decide_eq_true tag, decide_eq_true child⟩)
      · cases child
    simp [childrenOf, orphan]

theorem children_eq {node : Int32} {blobs : List (Container P)} {children : List (List Int32)}
    (made : blobs.mapM (child node) = some children) : children.flatten = childrenOf blobs node := by
  have each := Lists.forall₂_of_mapM made
  clear made
  induction each with
  | nil => rfl
  | @cons blob ids rest _ head _ ih =>
    rw [List.flatten_cons, ih, child_eq head, childrenOf, childrenOf, childrenOf]
    exact (List.filterMap_append (l := [blob])).symm

def coaMessage (F : Type) (blobs : List (Container P)) (node : Int32) : Message F :=
  { path := "/tuio2/coa".toList, args := .int (stands blobs node) :: .int 0 :: (childrenOf blobs node).map .int }

theorem coaMessage_ints (F : Type) (blobs : List (Container P)) (node : Int32) :
    (coaMessage F blobs node).ints = stands blobs node :: 0 :: childrenOf blobs node := by
  unfold Message.ints coaMessage
  simp only [List.filterMap_cons, List.filterMap_map, Function.comp_def, List.filterMap_some]

theorem withPath_of_forall {F : Type} {path : String} {messages : List (Message F)} (all : ∀ m ∈ messages, m.path = path.toList) :
    withPath messages path = messages := List.filter_eq_self.mpr fun m member => decide_eq_true (all m member)

theorem withPath_of_none {F : Type} {path : String} {messages : List (Message F)} (none : ∀ m ∈ messages, m.path ≠ path.toList) :
    withPath messages path = [] := List.filter_eq_nil_iff.mpr fun m member => by simpa only [decide_eq_true_eq] using none m member

theorem withPath_append {F : Type} (first rest : List (Message F)) (path : String) :
    withPath (first ++ rest) path = withPath first path ++ withPath rest path := List.filter_append ..

theorem childIds_of_no_parents {blobs : List (Container P)} (none : parents blobs = []) : childIds blobs = [] := by
  rw [childIds, List.filterMap_eq_nil_iff]
  intro blob member
  rw [List.filterMap_eq_nil_iff.mp none blob member]
  rfl

/-- A message that lists ids. -/
def idMessage (F : Type) (path : String) (ids : List Int32) : Message F := { path := path.toList, args := ids.map .int }

theorem idMessage_ints (F : Type) (path : String) (ids : List Int32) : (idMessage F path ids).ints = ids := by
  unfold Message.ints idMessage
  simp only [List.filterMap_map, Function.comp_def, List.filterMap_some]

theorem withPath_idMessage (F : Type) (path : String) (ids : List Int32) : withPath [idMessage F path ids] path = [idMessage F path ids] :=
  withPath_of_forall (List.forall_mem_singleton.mpr rfl)

theorem withPath_idMessage_other (F : Type) {path other : String} (ids : List Int32) (differ : path.toList ≠ other.toList) :
    withPath [idMessage F path ids] other = [] := withPath_of_none (List.forall_mem_singleton.mpr differ)

theorem withPath_links (F : Type) (blobs : List (Container P)) (nodes ids : List Int32) :
    ala (idMessage F "/tuio2/ala" ids :: nodes.map (coaMessage F blobs)) = ids ∧
      coas (idMessage F "/tuio2/ala" ids :: nodes.map (coaMessage F blobs)) = nodes.map (coaMessage F blobs) ∧
      withPath (idMessage F "/tuio2/ala" ids :: nodes.map (coaMessage F blobs)) "/tuio2/alv" = [] := by
  have paths : ∀ m ∈ nodes.map (coaMessage F blobs), m.path = "/tuio2/coa".toList := by
    intro m member
    obtain ⟨node, -, rfl⟩ := List.mem_map.mp member
    rfl
  have other : ∀ path : String, "/tuio2/coa".toList ≠ path.toList → withPath (nodes.map (coaMessage F blobs)) path = [] :=
    fun path differ => withPath_of_none fun m member same => differ ((paths m member).symm.trans same)
  have first : ∀ path : String, withPath (idMessage F "/tuio2/ala" ids :: nodes.map (coaMessage F blobs)) path =
      withPath [idMessage F "/tuio2/ala" ids] path ++ withPath (nodes.map (coaMessage F blobs)) path := withPath_append [_] _
  refine ⟨?_, ?_, ?_⟩
  · rw [ala, first, withPath_idMessage, other "/tuio2/ala" (by decide), List.append_nil, List.flatMap_singleton, idMessage_ints]
  · rw [coas, first, withPath_idMessage_other F ids (by decide), withPath_of_forall paths, List.nil_append]
  · rw [first, withPath_idMessage_other F ids (by decide), other "/tuio2/alv" (by decide), List.nil_append]

theorem relations_eq {scan : Scan} {blobs : List (Container P)} {links : List (Message wire.Float)}
    (tracked : ∀ blob ∈ blobs, "tracked".toList ∈ blob.tags) (scanned : blobs.foldlM Scan.visit Scan.empty = some scan)
    (made : relations wire scan blobs = some links) :
    ala links = (unique (parents blobs)).map (stands blobs) ++ unique (childIds blobs) ∧
      coas links = (unique (parents blobs)).map (coaMessage wire.Float blobs) ∧ withPath links "/tuio2/alv" = [] := by
  obtain ⟨parent, child, relation, map⟩ := scan_relation tracked scanned
  rw [show Scan.empty.idsParent = [] from rfl, List.nil_append] at parent
  rw [show Scan.empty.idsBlob = [] from rfl, List.nil_append] at child
  rw [show Scan.empty.haveRelation = false from rfl, Bool.false_or] at relation
  have stand : scan.mapNodeBlob = stands blobs := funext map
  unfold relations at made
  rw [relation, parent, child, stand] at made
  by_cases empty : parents blobs = []
  · rw [empty] at made
    cases made
    rw [empty, childIds_of_no_parents empty]
    exact ⟨rfl, rfl, rfl⟩
  · rw [if_pos (by simpa using empty)] at made
    obtain ⟨messages, each, rfl⟩ := Option.map_eq_some_iff.mp made
    have same : (unique (parents blobs)).map (coaMessage wire.Float blobs) = messages := by
      rw [← List.forall₂_eq_eq_eq, List.forall₂_map_left_iff]
      refine (Lists.forall₂_of_mapM each).imp fun node m link => ?_
      obtain ⟨children, here, rfl⟩ := Option.map_eq_some_iff.mp link
      rw [children_eq here, stand]
      rfl
    rw [← same]
    exact withPath_links wire.Float blobs (unique (parents blobs)) _

theorem bundle_spec {s t : Tuio2 wire} {frame : Frame2 P} (tracked : ∀ blob ∈ frame.blobs, "tracked".toList ∈ blob.tags)
    (done : notifyData wire s frame = some t) (nonempty : frame.blobs ≠ []) :
    ∃ bundle, t.sent = s.sent ++ [bundle] ∧ alive bundle = trackedIds frame.blobs ∧
      ala bundle = (unique (parents frame.blobs)).map (stands frame.blobs) ++ unique (childIds frame.blobs) ∧
      coas bundle = (unique (parents frame.blobs)).map (coaMessage wire.Float frame.blobs) := by
  have readable := (notifyData_isSome wire s frame).mp (Option.isSome_iff_exists.mpr ⟨t, done⟩)
  have probed : probe frame.blobs = _ := probe_eq readable.implements
  unfold notifyData at done
  obtain ⟨scan, scanned, done⟩ := Option.bind_eq_some_iff.mp done
  rw [probed, Option.bind_eq_bind, Option.bind_some] at done
  obtain ⟨packed, items, done⟩ := Option.bind_eq_some_iff.mp done
  obtain ⟨links, linked, done⟩ := Option.bind_eq_some_iff.mp done
  rw [← Option.some.inj done, if_neg nonempty, if_neg (formatOf_ne_unknown _)]
  have alive_ : scan.alive = trackedIds frame.blobs := scan_alive scanned
  obtain ⟨alaLinks, coaLinks, alvLinks⟩ := relations_eq tracked scanned linked
  have quiet : ∀ path : String, path.toList ∉ itemPaths → withPath packed path = [] := fun path other =>
    withPath_of_none fun m member same => other (same ▸ pack_paths wire items m member)
  have first : ∀ path : String, "/tuio2/frm".toList ≠ path.toList → withPath
      ([{ path := "/tuio2/frm".toList, args := [.int s.frame, .int frame.time, .text "movid".toList] }] : Bundle wire.Float) path = [] :=
    fun path differ => withPath_of_none (List.forall_mem_singleton.mpr differ)
  have parts : ∀ (m n : Message wire.Float) (rest : Bundle wire.Float) (path : String),
      withPath (m :: n :: (packed ++ rest)) path = withPath [m] path ++ (withPath [n] path ++ (withPath packed path ++ withPath rest path)) := by
    intro m n rest path
    rw [← withPath_append, ← withPath_append, ← withPath_append]
    rfl
  refine ⟨_, rfl, ?_, ?_, ?_⟩
  · show List.flatMap _ (withPath (_ :: idMessage wire.Float "/tuio2/alv" scan.alive :: (packed ++ links)) _) = _
    rw [parts, first _ (by decide), withPath_idMessage, quiet _ (by decide), alvLinks, List.append_nil, List.nil_append, List.append_nil,
      List.flatMap_singleton, idMessage_ints, alive_]
  · show List.flatMap _ (withPath (_ :: idMessage wire.Float "/tuio2/alv" scan.alive :: (packed ++ links)) _) = _
    rw [parts, first _ (by decide), withPath_idMessage_other _ _ (by decide), quiet _ (by decide), List.nil_append, List.nil_append,
      List.nil_append]
    exact alaLinks
  · show withPath (_ :: idMessage wire.Float "/tuio2/alv" scan.alive :: (packed ++ links)) _ = _
    rw [parts, first _ (by decide), withPath_idMessage_other _ _ (by decide), quiet _ (by decide), List.nil_append, List.nil_append,
      List.nil_append]
    exact coaLinks

/-! ### When they are right -/

theorem mem_unique {ids : List Int32} {id : Int32} : id ∈ unique ids ↔ id ∈ ids := Lists.mem_destutter_ne

theorem mem_trackedIds {blobs : List (Container P)} (tracked : ∀ blob ∈ blobs, "tracked".toList ∈ blob.tags) {blob : Container P}
    (member : blob ∈ blobs) {id : Int32} (known : blob.integer "blob_id" = some id) : id ∈ trackedIds blobs :=
  List.mem_filterMap.mpr ⟨blob, member, by rw [if_pos (tracked blob member), known]⟩

theorem idsOf_tracked {blobs : List (Container P)} (tracked : ∀ blob ∈ blobs, "tracked".toList ∈ blob.tags) {node id : Int32}
    (member : id ∈ idsOf blobs node) : id ∈ trackedIds blobs := by
  obtain ⟨blob, inside, known⟩ := List.mem_filterMap.mp member
  split at known
  · exact mem_trackedIds tracked inside known
  · cases known

theorem childrenOf_tracked {blobs : List (Container P)} (tracked : ∀ blob ∈ blobs, "tracked".toList ∈ blob.tags) {node id : Int32}
    (member : id ∈ childrenOf blobs node) : id ∈ trackedIds blobs := by
  obtain ⟨blob, inside, known⟩ := List.mem_filterMap.mp member
  split at known
  · exact mem_trackedIds tracked inside known
  · cases known

theorem childIds_tracked {blobs : List (Container P)} (tracked : ∀ blob ∈ blobs, "tracked".toList ∈ blob.tags) {id : Int32}
    (member : id ∈ childIds blobs) : id ∈ trackedIds blobs := by
  obtain ⟨blob, inside, known⟩ := List.mem_filterMap.mp member
  obtain ⟨_, _, known⟩ := Option.bind_eq_some_iff.mp known
  exact mem_trackedIds tracked inside known

theorem stands_mem {blobs : List (Container P)} {node : Int32} (present : idsOf blobs node ≠ []) : stands blobs node ∈ idsOf blobs node := by
  rw [stands, List.getLast?_eq_some_getLast present, Option.getD_some]
  exact List.getLast_mem present

theorem coaParent_message (F : Type) (blobs : List (Container P)) (node : Int32) : coaParent (coaMessage F blobs node) = some (stands blobs node) := by
  rw [coaParent, coaMessage_ints]
  rfl

theorem coaChildren_message (F : Type) (blobs : List (Container P)) (node : Int32) : coaChildren (coaMessage F blobs node) = childrenOf blobs node := by
  rw [coaChildren, coaMessage_ints]
  rfl

theorem names_message (F : Type) (blobs : List (Container P)) (ids : List Int32) (node : Int32) :
    Names ids (coaMessage F blobs node) ↔ stands blobs node ∈ ids := by
  rw [Names, coaParent_message]
  simp

/-- The messages that name a parent are those of the nodes that its blobs stand for. -/
theorem filter_coas (F : Type) (blobs : List (Container P)) (nodes ids : List Int32) :
    (nodes.map (coaMessage F blobs)).filter (Names ids ·) =
      (nodes.filter fun node => decide (stands blobs node ∈ ids)).map (coaMessage F blobs) := by
  rw [List.filter_map]
  congr 1
  apply List.filter_congr
  intro node _
  exact decide_eq_decide.mpr (names_message F blobs ids node)

theorem Associates.present {F : Type} {blobs : List (Container P)} {bundle : Bundle F} (sound : Associates blobs bundle) {node : Int32}
    (member : node ∈ parents blobs) : idsOf blobs node ≠ [] := by
  intro empty
  obtain ⟨m, one, -⟩ := sound.link node member
  have inside : m ∈ (coas bundle).filter (Names (idsOf blobs node) ·) := one ▸ List.mem_cons_self
  obtain ⟨id, -, known⟩ := of_decide_eq_true (List.mem_filter.mp inside).2
  rw [empty] at known
  exact absurd known List.not_mem_nil

theorem Associates.related {F : Type} {blobs : List (Container P)} {bundle : Bundle F} (sound : Associates blobs bundle)
    (ala_ : Tuio2.ala bundle = (unique (parents blobs)).map (stands blobs) ++ unique (childIds blobs))
    (coas_ : coas bundle = (unique (parents blobs)).map (coaMessage F blobs)) : Related blobs := by
  have once := sound.once
  rw [ala_] at once
  obtain ⟨standing, single, disjoint⟩ := List.nodup_append.mp once
  refine ⟨fun node member => sound.present member, standing.of_map, ?_, ?_, single⟩
  · intro node member child
    exact disjoint _ (List.mem_map_of_mem (mem_unique.mpr member)) _ (mem_unique.mpr child) rfl
  · intro node member other member' differ shared
    obtain ⟨m, one, -⟩ := sound.link node member
    rw [coas_, filter_coas] at one
    obtain ⟨x, only, -⟩ := List.map_eq_singleton_iff.mp one
    have named : ∀ n ∈ parents blobs, stands blobs n ∈ idsOf blobs node → n = x := by
      intro n inside here
      have found : n ∈ (unique (parents blobs)).filter fun n => decide (stands blobs n ∈ idsOf blobs node) :=
        List.mem_filter.mpr ⟨mem_unique.mpr inside, decide_eq_true here⟩
      rw [only] at found
      exact List.mem_singleton.mp found
    exact differ ((named node member (stands_mem (sound.present member))).trans (named other member' shared).symm)

section Related

variable {blobs : List (Container P)} (related : Related blobs)
include related

theorem Related.own {node : Int32} (member : node ∈ unique (parents blobs)) : stands blobs node ∈ idsOf blobs node :=
  stands_mem (related.present node (mem_unique.mp member))

/-- A blob that is one node stands for no other. -/
theorem Related.eq_of_shared {node other : Int32} (member : node ∈ unique (parents blobs)) (member' : other ∈ unique (parents blobs))
    (shared : stands blobs other ∈ idsOf blobs node) : other = node := by
  by_contra differ
  exact related.apart node (mem_unique.mp member) other (mem_unique.mp member') (Ne.symm differ) shared

theorem Related.nodup : ((unique (parents blobs)).map (stands blobs) ++ unique (childIds blobs)).Nodup := by
  refine List.nodup_append.mpr ⟨?_, related.single, ?_⟩
  · refine related.grouped.map_on fun node inside other inside' same => ?_
    exact related.eq_of_shared inside' inside (same ▸ related.own inside')
  · rintro id parent other child rfl
    obtain ⟨node, inside, rfl⟩ := List.mem_map.mp parent
    exact related.rooted node (mem_unique.mp inside) (mem_unique.mp child)

theorem Related.only {node : Int32} (member : node ∈ unique (parents blobs)) :
    (unique (parents blobs)).filter (fun n => decide (stands blobs n ∈ idsOf blobs node)) = [node] := by
  refine Lists.filter_eq_singleton related.grouped member fun other inside => ?_
  rw [decide_eq_true_eq]
  constructor
  · exact related.eq_of_shared member inside
  · rintro rfl
    exact related.own inside

theorem Related.associates {F : Type} {bundle : Bundle F} (tracked : ∀ blob ∈ blobs, "tracked".toList ∈ blob.tags)
    (alive_ : alive bundle = trackedIds blobs) (ala_ : ala bundle = (unique (parents blobs)).map (stands blobs) ++ unique (childIds blobs))
    (coas_ : coas bundle = (unique (parents blobs)).map (coaMessage F blobs)) : Associates blobs bundle := by
  refine ⟨?_, ?_, ala_ ▸ related.nodup, ?_⟩
  · intro id member
    rw [alive_]
    rw [ala_] at member
    rcases List.mem_append.mp member with parent | child
    · obtain ⟨node, inside, rfl⟩ := List.mem_map.mp parent
      exact idsOf_tracked tracked (related.own inside)
    · exact childIds_tracked tracked (mem_unique.mp child)
  · intro m member id named
    rw [alive_]
    rw [coas_] at member
    obtain ⟨node, inside, rfl⟩ := List.mem_map.mp member
    rw [coaParent_message, coaChildren_message] at named
    rcases List.mem_append.mp named with parent | child
    · rw [List.mem_singleton.mp parent]
      exact idsOf_tracked tracked (related.own inside)
    · exact childrenOf_tracked tracked child
  · intro node member
    refine ⟨coaMessage F blobs node, ?_, coaChildren_message F blobs node⟩
    rw [coas_, filter_coas, related.only (mem_unique.mpr member)]
    rfl

end Related

/-- The relations in the bundle of a frame of tracked blobs are right exactly if every parent is there and no child
itself, the children of a parent stand together, and ids are not shared. -/
theorem notifyData_associates_iff {s t : Tuio2 wire} {frame : Frame2 P} (tracked : ∀ blob ∈ frame.blobs, "tracked".toList ∈ blob.tags)
    (done : notifyData wire s frame = some t) :
    (∀ bundle, t.sent = s.sent ++ [bundle] → Associates frame.blobs bundle) ↔ Related frame.blobs := by
  by_cases empty : frame.blobs = []
  · refine iff_of_true (fun bundle sent => ?_) ?_
    · have count := notifyData_sends wire done
      rw [sent, empty, List.length_append] at count
      cases Nat.add_left_cancel count
    · rw [empty]
      exact ⟨nofun, List.nodup_nil, nofun, nofun, List.nodup_nil⟩
  · obtain ⟨bundle, sent, alive_, ala_, coas_⟩ := bundle_spec tracked done empty
    constructor
    · exact fun all => (all bundle sent).related ala_ coas_
    · intro related other same
      have last := List.append_cancel_left (sent.symm.trans same)
      exact List.singleton_inj.mp last ▸ related.associates tracked alive_ ala_ coas_

/-- With distinct ids the last two conditions always hold. -/
theorem related_of_distinct {blobs : List (Container P)} (tracked : ∀ blob ∈ blobs, "tracked".toList ∈ blob.tags) (distinct : (trackedIds blobs).Nodup)
    (present : ∀ node ∈ parents blobs, idsOf blobs node ≠ []) (grouped : (unique (parents blobs)).Nodup)
    (rooted : ∀ node ∈ parents blobs, stands blobs node ∉ childIds blobs) : Related blobs := by
  have apart : blobs.Pairwise fun a b => ∀ id, a.integer "blob_id" = some id → b.integer "blob_id" ≠ some id := by
    refine (List.pairwise_filterMap.mp distinct).imp_of_mem fun {a b} first second differ id known known' => ?_
    exact differ id (by rw [if_pos (tracked a first), known]) id (by rw [if_pos (tracked b second), known']) rfl
  have same : ∀ blob ∈ blobs, ∀ other ∈ blobs, ∀ id, blob.integer "blob_id" = some id → other.integer "blob_id" = some id → blob = other := by
    intro blob member other member' id known known'
    have symmetric : Std.Symm fun a b : Container P => ∀ id, a.integer "blob_id" = some id → b.integer "blob_id" ≠ some id :=
      ⟨fun _ _ rel id known known' => rel id known' known⟩
    by_contra differ
    exact apart.forall member member' differ id known known'
  refine ⟨present, grouped, rooted, ?_, ?_⟩
  · intro node _ other member differ shared
    obtain ⟨blob, inside, known⟩ := List.mem_filterMap.mp shared
    obtain ⟨blob', inside', known'⟩ := List.mem_filterMap.mp (stands_mem (present other member))
    split at known
    · rename_i here
      split at known'
      · rename_i there
        rw [same blob inside blob' inside' _ known known', there] at here
        exact differ (Option.some.inj here).symm
      · cases known'
    · cases known
  · have children : (childIds blobs).Nodup := by
      refine List.pairwise_filterMap.mpr (apart.imp fun {a b} differ id known id' known' equal => ?_)
      obtain ⟨_, _, known⟩ := Option.bind_eq_some_iff.mp known
      obtain ⟨_, _, known'⟩ := Option.bind_eq_some_iff.mp known'
      exact differ id known (equal ▸ known')
    exact (List.destutter_sublist _ _).nodup children

/-- A tracked blob with a node id. -/
def nodeBlob (id node : Int32) (parent : Option Int32) : Container Platform.whole :=
  let blob := Container.empty.put "implements" (.string "pos,node,tracked".toList) |>.put "blob_id" (.integer id)
    |>.put "x" (.double (0 : Int)) |>.put "y" (.double (1 : Int)) |>.put "node_id" (.integer node)
  parent.elim blob fun parent => blob.put "parent_node_id" (.integer parent)

def hand : List (Container Platform.whole) := [nodeBlob 4 0 none, nodeBlob 5 1 (some 0), nodeBlob 6 2 (some 0)]

theorem hand_associates : ∃ t bundle, notifyData Tuio.wholeWire (start Tuio.wholeWire) ⟨0, hand⟩ = some t ∧ t.sent = [bundle] ∧
    Associates hand bundle := by
  have ran : (notifyData Tuio.wholeWire (start Tuio.wholeWire) ⟨0, hand⟩).map (fun t => t.sent.length) = some 1 := by decide +kernel
  obtain ⟨t, done, one⟩ := Option.map_eq_some_iff.mp ran
  obtain ⟨bundle, sent⟩ := List.length_eq_one_iff.mp one
  have tracked : ∀ blob ∈ hand, "tracked".toList ∈ blob.tags := by decide +kernel
  have root : ∀ node ∈ parents hand, node = 0 := by
    have shape : parents hand = [0, 0] := by decide +kernel
    intro node member
    rw [shape] at member
    simpa using member
  have related : Related hand := by
    refine related_of_distinct tracked (by decide +kernel) ?_ (by decide +kernel) ?_
    · intro node member
      rw [root node member]
      decide +kernel
    · intro node member
      rw [root node member]
      decide +kernel
  have sound : ∀ bundle, t.sent = [] ++ [bundle] → Associates hand bundle := (notifyData_associates_iff tracked done).mpr related
  exact ⟨t, bundle, done, sent, sound bundle sent⟩

/-- The parent is not in the list, so the messages name the blob 0. -/
theorem orphan_names_nobody : ∃ t bundle, notifyData Tuio.wholeWire (start Tuio.wholeWire) ⟨0, [nodeBlob 5 1 (some 0)]⟩ = some t ∧
    t.sent = [bundle] ∧ ¬ Associates [nodeBlob 5 1 (some 0)] bundle := by
  have ran : (notifyData Tuio.wholeWire (start Tuio.wholeWire) ⟨0, [nodeBlob 5 1 (some 0)]⟩).map
      (fun t => t.sent.map fun bundle => (ala bundle, alive bundle)) = some [([0, 5], [5])] := by decide +kernel
  obtain ⟨t, done, read⟩ := Option.map_eq_some_iff.mp ran
  obtain ⟨bundle, sent, same⟩ := List.map_eq_singleton_iff.mp read
  obtain ⟨ala_, alive_⟩ := Prod.mk.inj same
  refine ⟨t, bundle, done, sent, fun sound => ?_⟩
  have known := sound.ala 0 (by rw [ala_]; decide)
  rw [alive_] at known
  exact absurd known (by decide)

end Movid.Output.Tuio2
