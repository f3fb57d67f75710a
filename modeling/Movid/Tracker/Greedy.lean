import Movid.Lib.Search
import Movid.Tracker.Identity

/-!
# What the greedy tracker matches

Each new blob in turn takes the nearest old blob that fits and that no earlier one has taken. The
double arithmetic enters through the distances only, which are compared as a linear order.
-/

namespace Movid.Tracker

variable {D : Type} {ops : Doubles D}

def greedyStart (settings : Settings D) (old new : List (Blob D)) : Progress D :=
  { settings, frame := [], old, done := [], todo := new, reused := [], n2s := [] }

/-- `moGreedyBlobTrackerModule::trackBlobs`, on the lists it works on. -/
def greedyTrackBlobs (ops : Doubles D) (settings : Settings D) (old new : List (Blob D)) (counter : Int) :
    Option (List (Blob D) × Int) :=
  (trackBlobs ops .greedy new.length (greedyStart settings old new) counter).bind fun (p, counter) =>
    (p.done.mapM (expire settings)).map fun blobs => (blobs, counter)

/-! ### Inside `update` -/

theorem ids_expired {settings : Settings D} {blobs expired : List (Blob D)} (h : blobs.mapM (expire settings) = some expired) :
    ids expired = ids blobs := by
  refine ids_of_forall₂ (fun b b' same => ?_) ((Lists.forall₂_of_mapM h).imp fun _ _ => expire_spec)
  rw [same.1]
  rfl

theorem track_frame (p : Progress D) (frame : List (Detection D)) (counter : Int) :
    track ops .greedy { p with frame } counter = (track ops .greedy p counter).map fun (q, c) => ({ q with frame }, c) := by
  cases shape : p.todo with
  | nil => simp only [track, shape, Option.map_some]
  | cons blob todo =>
    simp only [track, shape, Option.map_map]
    rfl

theorem trackBlobs_frame (n : Nat) (p : Progress D) (frame : List (Detection D)) (counter : Int) :
    trackBlobs ops .greedy n { p with frame } counter =
      (trackBlobs ops .greedy n p counter).map fun (q, c) => ({ q with frame }, c) := by
  induction n generalizing p counter with
  | zero => rfl
  | succ n ih =>
    rw [trackBlobs, track_frame, trackBlobs]
    cases track ops .greedy p counter with
    | none => rfl
    | some next => exact ih next.1 next.2

theorem trackBlobs_settings {n : Nat} {p q : Progress D} {counter counter' : Int}
    (h : trackBlobs ops .greedy n p counter = some (q, counter')) : q.settings = p.settings := by
  induction n generalizing p counter with
  | zero =>
    cases h
    rfl
  | succ n ih =>
    obtain ⟨⟨next, c⟩, first, rest⟩ := Option.bind_eq_some_iff.mp h
    exact (ih rest).trans (track_same first).1

/-- `update` calls it with the aged old blobs and the copies of the frame. -/
theorem update_greedy {mtdevMatch : Matching} {t : State D} {counter counter' : Int} {settings : Settings D} {frame : List (Detection D)}
    {report : Report D} (greedy : t.kind = .greedy) (h : update ops mtdevMatch t counter settings frame = some (report, counter')) :
    greedyTrackBlobs ops settings (t.oldBlobs.map .older) (frame.map Detection.clone) counter = some (report.detected, counter') := by
  obtain ⟨p, begun, h⟩ := Option.bind_eq_some_iff.mp h
  obtain ⟨⟨q, c⟩, ran, h⟩ := Option.bind_eq_some_iff.mp h
  obtain ⟨r, ended, same⟩ := Option.map_eq_some_iff.mp h
  cases same
  rw [greedy] at begun ran ended
  cases begun
  have started : trackBlobs ops .greedy frame.length
      { greedyStart settings (t.oldBlobs.map .older) (frame.map Detection.clone) with frame } counter = some (q, _) := ran
  rw [trackBlobs_frame] at started
  obtain ⟨⟨q', c'⟩, ran', same⟩ := Option.map_eq_some_iff.mp started
  cases same
  obtain ⟨detected, new, expired, _, rfl⟩ := finish_spec ended
  have kept : q'.settings = settings := trackBlobs_settings ran'
  rw [greedyTrackBlobs, List.length_map, ran', Option.bind_some]
  show Option.map _ (q'.done.mapM (expire settings)) = _
  rw [← kept]
  exact congrArg (Option.map fun blobs => (blobs, _)) expired

/-- In the program the counter is never behind the ids of the old blobs. -/
theorem reached_fresh {mtdevMatch : Matching} (injective : mtdevMatch.Injective) {kinds : List Kind} {events : List (Event D)}
    {s : System D} (reached : Machine.attempt (System.step ops mtdevMatch) (.initial kinds) events = some s) {i : Nat} {t : State D}
    (found : s.trackers[i]? = some t) : ∀ x ∈ ids (t.oldBlobs.map .older), x ≤ s.counter := by
  intro x member
  rw [ids_older] at member
  exact ((System.reached_ok injective reached).tracker i t found).bounded x (List.mem_append_left _ member)

/-! ### The loop returns -/

/-- What `trackBlobs` reads of a fiducial, an object or a volatile blob is there. -/
def Tagged (b : Blob D) : Prop :=
  isFid b.implements = some true ∨ isVolatile b.implements = some true → b.fiducialId.isSome

theorem isFid_isSome (implements : Str) : (isFid implements).isSome := by
  unfold isFid inTags
  rw [Utils.inList_eq, Option.bind_some]
  split
  · rfl
  · rw [Utils.inList_eq]
    rfl

theorem isVolatile_isSome (implements : Str) : (isVolatile implements).isSome := by
  rw [isVolatile, inTags, Utils.inList_eq]
  rfl

theorem compatible_isSome {blob o : Blob D} {newIsFid newIsVolatile oldIsFid : Bool} (newTag : isFid blob.implements = some newIsFid)
    (oldTag : isFid o.implements = some oldIsFid) (new : Tagged blob) (old : Tagged o) :
    (compatible blob o newIsFid newIsVolatile oldIsFid).isSome := by
  unfold compatible
  split
  · rename_i both
    simp only [Bool.and_eq_true, Bool.not_eq_true'] at both
    obtain ⟨fid, newFid⟩ := Option.isSome_iff_exists.mp (new (.inl (newTag.trans (congrArg some both.1.2))))
    obtain ⟨oldFid, oldHas⟩ := Option.isSome_iff_exists.mp (old (.inl (oldTag.trans (congrArg some both.1.1))))
    simp [newFid, oldHas]
  · rfl

theorem consider_isSome {reused : List Int} {blob o : Blob D} {newIsFid newIsVolatile : Bool} (newTag : isFid blob.implements = some newIsFid)
    (new : Tagged blob) (old : Tagged o) (closest : Closest D) : (consider ops reused blob newIsFid newIsVolatile closest o).isSome := by
  unfold consider
  split
  · rfl
  · obtain ⟨oldIsFid, oldTag⟩ := Option.isSome_iff_exists.mp (isFid_isSome o.implements)
    rw [oldTag, Option.bind_some, Option.isSome_map]
    exact compatible_isSome newTag oldTag new old

theorem search_isSome {reused : List Int} {blob : Blob D} {newIsFid newIsVolatile : Bool} (newTag : isFid blob.implements = some newIsFid)
    (new : Tagged blob) {old : List (Blob D)} (tagged : ∀ o ∈ old, Tagged o) (closest : Closest D) :
    (old.foldlM (consider ops reused blob newIsFid newIsVolatile) closest).isSome := by
  induction old generalizing closest with
  | nil => rfl
  | cons o rest ih =>
    obtain ⟨first, later⟩ := List.forall_mem_cons.mp tagged
    have now : (consider ops reused blob newIsFid newIsVolatile closest o).isSome := consider_isSome newTag new first closest
    obtain ⟨next, now⟩ := Option.isSome_iff_exists.mp now
    rw [List.foldlM_cons, now]
    exact ih later next

theorem copyFid_isSome {blob closest : Blob D} {newIsFid oldIsFid : Bool} (newIsVolatile : Bool) (newTag : isFid blob.implements = some newIsFid)
    (oldTag : isFid closest.implements = some oldIsFid) (new : Tagged blob) (old : Tagged closest) :
    ∃ b, copyFid blob closest newIsFid newIsVolatile oldIsFid = some b ∧ Tagged b := by
  unfold copyFid
  split
  · rename_i both
    simp only [Bool.and_eq_true] at both
    obtain ⟨fid, newFid⟩ := Option.isSome_iff_exists.mp (new (.inl (newTag.trans (congrArg some both.1.2))))
    obtain ⟨oldFid, oldHas⟩ := Option.isSome_iff_exists.mp (old (.inl (oldTag.trans (congrArg some both.1.1))))
    exact ⟨_, by rw [oldHas, newFid]; rfl, fun _ => rfl⟩
  · exact ⟨blob, rfl, new⟩

theorem greedyTrack_isSome {settings : Settings D} {old : List (Blob D)} (tagged : ∀ o ∈ old, Tagged o) (reused : List Int) (counter : Int)
    {blob : Blob D} (new : Tagged blob) :
    ∃ b reused' counter', greedyTrack ops settings old reused counter blob = some (b, reused', counter') ∧ Tagged b := by
  obtain ⟨newIsFid, newTag⟩ := Option.isSome_iff_exists.mp (isFid_isSome blob.implements)
  obtain ⟨newIsVolatile, volatileTag⟩ := Option.isSome_iff_exists.mp (isVolatile_isSome blob.implements)
  have search : (old.foldlM (consider ops reused blob newIsFid newIsVolatile) ⟨none, settings.maxDistance⟩).isSome :=
    search_isSome newTag new tagged _
  obtain ⟨found, search⟩ := Option.isSome_iff_exists.mp search
  simp only [greedyTrack, newTag, volatileTag, search, Option.bind_some]
  cases picked : found.blob with
  | none => exact ⟨_, _, _, rfl, new⟩
  | some closest =>
    rcases closest_spec search picked with impossible | ⟨member, -⟩
    · cases impossible
    · obtain ⟨oldIsFid, oldTag⟩ := Option.isSome_iff_exists.mp (isFid_isSome closest.implements)
      obtain ⟨b, copied, kept⟩ := copyFid_isSome newIsVolatile newTag oldTag new (tagged closest member)
      simp only [oldTag, Option.bind_some, copied]
      exact ⟨_, _, _, rfl, kept⟩

theorem trackBlobs_isSome {n : Nat} {p : Progress D} (old : ∀ o ∈ p.old, Tagged o) (todo : ∀ b ∈ p.todo, Tagged b)
    (done : ∀ b ∈ p.done, Tagged b) (counter : Int) :
    ∃ q counter', trackBlobs ops .greedy n p counter = some (q, counter') ∧ ∀ b ∈ q.done, Tagged b := by
  induction n generalizing p counter with
  | zero => exact ⟨p, counter, rfl, done⟩
  | succ n ih =>
    cases shape : p.todo with
    | nil =>
      obtain ⟨q, counter', rest, kept⟩ := ih old todo done counter
      refine ⟨q, counter', ?_, kept⟩
      simp only [trackBlobs, track, shape, Option.bind_some]
      exact rest
    | cons blob later =>
      rw [shape] at todo
      obtain ⟨first, others⟩ := List.forall_mem_cons.mp todo
      have step : ∃ b reused c, greedyTrack ops p.settings p.old p.reused counter blob = some (b, reused, c) ∧ Tagged b :=
        greedyTrack_isSome old p.reused counter first
      obtain ⟨b, reused, c, now, kept⟩ := step
      have done' : ∀ x ∈ p.done ++ [b], Tagged x := by
        intro x member
        rcases List.mem_append.mp member with earlier | last
        · exact done x earlier
        · exact List.mem_singleton.mp last ▸ kept
      obtain ⟨q, counter', rest, all⟩ := ih (p := { p with done := p.done ++ [b], todo := later, reused }) old others done' c
      refine ⟨q, counter', ?_, all⟩
      simp only [trackBlobs, track, shape, now, Option.map_some, Option.bind_some]
      exact rest

theorem greedyTrackBlobs_isSome (settings : Settings D) {old new : List (Blob D)} (counter : Int) (tagged : ∀ b ∈ old ++ new, Tagged b) :
    (greedyTrackBlobs ops settings old new counter).isSome := by
  have run : ∃ q c, trackBlobs ops .greedy new.length (greedyStart settings old new) counter = some (q, c) ∧ ∀ b ∈ q.done, Tagged b :=
    trackBlobs_isSome (fun o member => tagged o (List.mem_append_left _ member))
      (fun b member => tagged b (List.mem_append_right _ member)) (fun b member => absurd member List.not_mem_nil) counter
  obtain ⟨q, c, ran, all⟩ := run
  have ends : (q.done.mapM (expire settings)).isSome := by
    refine Lists.mapM_isSome.mpr fun b member => ?_
    obtain ⟨newIsVolatile, tag⟩ := Option.isSome_iff_exists.mp (isVolatile_isSome b.implements)
    rw [expire, tag, Option.bind_some]
    split
    · rename_i volatile
      subst volatile
      rw [Option.isSome_map]
      exact all b member (.inr tag)
    · rfl
  rw [greedyTrackBlobs, ran, Option.bind_some, Option.isSome_map]
  exact ends

/-! ### The rule -/

/-- The old blob may be the new one: a fiducial or object only matches one, and unless it is volatile only one
with the same fiducial id. -/
def Fits (blob old : Blob D) : Prop :=
  isFid blob.implements = some true →
    isFid old.implements = some true ∧ (isVolatile blob.implements = some true ∨ blob.fiducialId = old.fiducialId)

def Free (used : List Int) (blob old : Blob D) : Prop := old.blobId ∉ used ∧ Fits blob old

theorem compatible_iff {blob old : Blob D} {newIsFid newIsVolatile oldIsFid fits : Bool} (newTag : isFid blob.implements = some newIsFid)
    (volatileTag : isVolatile blob.implements = some newIsVolatile) (oldTag : isFid old.implements = some oldIsFid)
    (h : compatible blob old newIsFid newIsVolatile oldIsFid = some fits) : fits = true ↔ Fits blob old := by
  unfold compatible at h
  unfold Fits
  rw [newTag, volatileTag, oldTag]
  cases newIsFid with
  | false =>
    simp at h
    simp [← h]
  | true =>
    cases oldIsFid with
    | false =>
      simp at h
      simp [← h]
    | true =>
      cases newIsVolatile with
      | true =>
        simp at h
        simp [← h]
      | false =>
        simp only [Bool.and_true, Bool.not_false, if_true] at h
        obtain ⟨fid, newFid, h⟩ := Option.bind_eq_some_iff.mp h
        obtain ⟨oldFid, oldHas, same⟩ := Option.map_eq_some_iff.mp h
        simp [newFid, oldHas, ← same]

variable [LinearOrder D]

/-- The rule for one new blob, when the earlier ones have the ids in `used`. -/
def Rule (ops : Doubles D) (settings : Settings D) (old : List (Blob D)) (used : List Int) (counter : Int) (blob : Blob D) (id : Int) : Prop :=
  (∃ o, Search.Least (Free used blob) (distance ops blob) old o ∧ distance ops blob o < settings.maxDistance ∧ id = o.blobId) ∨
  ((∀ o ∈ old, Free used blob o → settings.maxDistance ≤ distance ops blob o) ∧ counter < id)

/-! ### The search -/

theorem consider_running (order : ∀ a b, ops.lt a b = decide (a < b)) {reused : List Int} {blob o : Blob D} {newIsFid newIsVolatile : Bool}
    (newTag : isFid blob.implements = some newIsFid) (volatileTag : isVolatile blob.implements = some newIsVolatile) {bound : D}
    {before : List (Blob D)} {closest result : Closest D}
    (running : Search.Running (Free reused blob) (distance ops blob) bound before closest.blob closest.minDistance)
    (h : consider ops reused blob newIsFid newIsVolatile closest o = some result) :
    Search.Running (Free reused blob) (distance ops blob) bound (before ++ [o]) result.blob result.minDistance := by
  unfold consider at h
  split at h
  · rename_i taken
    cases h
    exact running.skip fun free => absurd taken free.1
  · rename_i unused
    obtain ⟨oldIsFid, oldTag, h⟩ := Option.bind_eq_some_iff.mp h
    obtain ⟨fits, rule, h⟩ := Option.map_eq_some_iff.mp h
    have fitsIff := compatible_iff newTag volatileTag oldTag rule
    rw [order] at h
    split at h
    · rename_i nearer
      obtain ⟨fit, near⟩ := Bool.and_eq_true_iff.mp nearer
      cases h
      exact running.pick ⟨unused, fitsIff.mp fit⟩ (of_decide_eq_true near)
    · rename_i farther
      cases h
      refine running.skip fun free => ?_
      by_contra near
      exact farther (Bool.and_eq_true_iff.mpr ⟨fitsIff.mpr free.2, decide_eq_true (lt_of_not_ge near)⟩)

theorem search_running (order : ∀ a b, ops.lt a b = decide (a < b)) {reused : List Int} {blob : Blob D} {newIsFid newIsVolatile : Bool}
    (newTag : isFid blob.implements = some newIsFid) (volatileTag : isVolatile blob.implements = some newIsVolatile) {bound : D}
    {before rest : List (Blob D)} {closest result : Closest D}
    (running : Search.Running (Free reused blob) (distance ops blob) bound before closest.blob closest.minDistance)
    (h : rest.foldlM (consider ops reused blob newIsFid newIsVolatile) closest = some result) :
    Search.Running (Free reused blob) (distance ops blob) bound (before ++ rest) result.blob result.minDistance := by
  induction rest generalizing before closest with
  | nil =>
    cases h
    rwa [List.append_nil]
  | cons o rest ih =>
    rw [List.foldlM_cons] at h
    obtain ⟨next, now, later⟩ := Option.bind_eq_some_iff.mp h
    have running := ih (consider_running order newTag volatileTag running now) later
    rwa [List.append_assoc] at running

theorem greedyTrack_rule (order : ∀ a b, ops.lt a b = decide (a < b)) {settings : Settings D} {old : List (Blob D)}
    {reused reused' : List Int} {counter counter' : Int} {blob b : Blob D}
    (h : greedyTrack ops settings old reused counter blob = some (b, reused', counter')) :
    (∃ o, Search.Least (Free reused blob) (distance ops blob) old o ∧ distance ops blob o < settings.maxDistance ∧
        b.blobId = o.blobId ∧ reused' = reused ++ [o.blobId] ∧ counter' = counter) ∨
      ((∀ o ∈ old, Free reused blob o → settings.maxDistance ≤ distance ops blob o) ∧
        b.blobId = counter + 1 ∧ reused' = reused ∧ counter' = counter + 1) := by
  unfold greedyTrack at h
  obtain ⟨newIsFid, newTag, h⟩ := Option.bind_eq_some_iff.mp h
  obtain ⟨newIsVolatile, volatileTag, h⟩ := Option.bind_eq_some_iff.mp h
  obtain ⟨found, search, h⟩ := Option.bind_eq_some_iff.mp h
  have running : Search.Running (Free reused blob) (distance ops blob) settings.maxDistance old found.blob found.minDistance :=
    search_running order newTag volatileTag Search.Running.nil search
  split at h
  · rename_i closest picked
    obtain ⟨oldIsFid, _, h⟩ := Option.bind_eq_some_iff.mp h
    obtain ⟨copied, _, same⟩ := Option.map_eq_some_iff.mp h
    cases same
    rw [picked] at running
    obtain ⟨least, near⟩ := running.least
    exact .inl ⟨closest, least, near, rfl, rfl, rfl⟩
  · rename_i none_
    cases h
    refine .inr ⟨fun o member free => ?_, rfl, rfl, rfl⟩
    rw [← running.start none_]
    exact running.low o member free

/-! ### The loop -/

/-- What holds after some rounds of the loop. -/
structure Ruled (ops : Doubles D) (settings : Settings D) (old new : List (Blob D)) (start : Int) (p : Progress D) (counter : Int) :
    Prop where
  sameSettings : p.settings = settings
  sameOld : p.old = old
  split : ∃ before, new = before ++ p.todo ∧ before.length = p.done.length
  rule : ∀ (i : Nat) blob b, new[i]? = some blob → p.done[i]? = some b → Rule ops settings old (ids (p.done.take i)) start blob b.blobId
  reused : ∀ x ∈ ids old, x ∈ p.reused ↔ x ∈ ids p.done
  nodup : (ids p.done).Nodup
  bounded : ∀ x ∈ ids p.done, x ≤ counter
  grows : start ≤ counter

/-- A blob that is done next, with an id that follows the rule. -/
theorem Ruled.snoc {settings : Settings D} {old new : List (Blob D)} {start counter counter' : Int} {p q : Progress D}
    (ruled : Ruled ops settings old new start p counter) {blob b : Blob D} {todo : List (Blob D)} (shape : p.todo = blob :: todo)
    (next : q = { p with done := p.done ++ [b], todo, reused := q.reused })
    (rule : Rule ops settings old (ids p.done) start blob b.blobId)
    (reused : ∀ x ∈ ids old, x ∈ q.reused ↔ x ∈ p.reused ∨ x = b.blobId)
    (unused : b.blobId ∉ ids p.done) (bounded : b.blobId ≤ counter') (grows : counter ≤ counter') :
    Ruled ops settings old new start q counter' := by
  obtain ⟨before, whole, length⟩ := ruled.split
  rw [shape] at whole
  rw [next]
  refine ⟨ruled.sameSettings, ruled.sameOld, ⟨before ++ [blob], by simp [whole], by simp [length]⟩, ?_, ?_, ?_, ?_, ruled.grows.trans grows⟩
  · intro i blob' b' here done
    rcases Nat.lt_trichotomy i p.done.length with earlier | rfl | later
    · rw [List.getElem?_append_left earlier] at done
      rw [List.take_append_of_le_length earlier.le]
      exact ruled.rule i blob' b' here done
    · rw [← length, whole, List.getElem?_append_right le_rfl, Nat.sub_self] at here
      rw [List.getElem?_append_right le_rfl, Nat.sub_self] at done
      cases here
      cases done
      rw [List.take_left]
      exact rule
    · rw [List.getElem?_eq_none (by simp; omega)] at done
      cases done
  · intro x known
    rw [reused x known, ruled.reused x known]
    exact mem_ids_concat.symm
  · exact nodup_ids_concat ruled.nodup unused
  · intro x member
    rcases mem_ids_concat.mp member with earlier | rfl
    · exact (ruled.bounded x earlier).trans grows
    · exact bounded

theorem Ruled.track (order : ∀ a b, ops.lt a b = decide (a < b)) {settings : Settings D} {old new : List (Blob D)}
    {start counter counter' : Int} (fresh : ∀ x ∈ ids old, x ≤ start) {p q : Progress D}
    (ruled : Ruled ops settings old new start p counter) (h : track ops .greedy p counter = some (q, counter')) :
    Ruled ops settings old new start q counter' := by
  cases track_moves h with
  | ended => exact ruled
  | @greedy blob b todo reused c shape now =>
    rw [ruled.sameSettings, ruled.sameOld] at now
    have agree : ∀ o ∈ old, Free p.reused blob o ↔ Free (ids p.done) blob o := fun o member =>
      and_congr_left fun _ => not_congr (ruled.reused o.blobId (mem_ids.mpr ⟨o, member, rfl⟩))
    rcases greedyTrack_rule order now with ⟨o, least, near, id, rfl, rfl⟩ | ⟨far, id, rfl, rfl⟩
    · have least' := least.congr agree
      have known : o.blobId ∈ ids old := mem_ids.mpr ⟨o, least.mem, rfl⟩
      have unused : b.blobId ∉ ids p.done := id ▸ least'.1.1
      refine ruled.snoc shape rfl (.inl ⟨o, least', near, id⟩) ?_ unused ?_ le_rfl
      · intro x _
        simp [id]
      · rw [id]
        exact (fresh _ known).trans ruled.grows
    · have above : ∀ x, x ≤ counter → x ≠ b.blobId := by
        intro x bound
        omega
      refine ruled.snoc shape rfl (.inr ⟨fun o member free => far o member ((agree o member).mpr free), ?_⟩) ?_ ?_
        (show b.blobId ≤ counter + 1 by omega) (show counter ≤ counter + 1 by omega)
      · have := ruled.grows
        show start < b.blobId
        omega
      · intro x known
        have := above x ((fresh x known).trans ruled.grows)
        simp [this]
      · exact fun done => above _ (ruled.bounded _ done) rfl

theorem Ruled.trackBlobs (order : ∀ a b, ops.lt a b = decide (a < b)) {settings : Settings D} {old new : List (Blob D)}
    {start counter counter' : Int} (fresh : ∀ x ∈ ids old, x ≤ start) {n : Nat} {p q : Progress D}
    (ruled : Ruled ops settings old new start p counter) (h : trackBlobs ops .greedy n p counter = some (q, counter')) :
    Ruled ops settings old new start q counter' := by
  induction n generalizing p counter with
  | zero =>
    cases h
    exact ruled
  | succ n ih =>
    obtain ⟨⟨next, c⟩, first, rest⟩ := Option.bind_eq_some_iff.mp h
    exact ih (ruled.track order fresh first) rest

/-! ### The whole of `trackBlobs` -/

/-- The ids that the greedy tracker has given to the new blobs, when the counter ends at `counter'`. -/
structure GreedyIds (ops : Doubles D) (settings : Settings D) (old new : List (Blob D)) (counter : Int) (given : List Int) (counter' : Int) :
    Prop where
  length : given.length = new.length
  rule : ∀ (i : Nat) blob id, new[i]? = some blob → given[i]? = some id → Rule ops settings old (given.take i) counter blob id
  nodup : given.Nodup
  bounded : ∀ id ∈ given, id ≤ counter'
  far : ∀ (i : Nat) blob id, new[i]? = some blob → given[i]? = some id → id ∉ ids old →
    ∀ o ∈ old, o.blobId ∉ given → Fits blob o → settings.maxDistance ≤ distance ops blob o

theorem Ruled.greedyIds {settings : Settings D} {old new : List (Blob D)} {counter counter' : Int} {p : Progress D}
    (ruled : Ruled ops settings old new counter p counter') (done : p.todo = []) :
    GreedyIds ops settings old new counter (ids p.done) counter' := by
  obtain ⟨before, whole, length⟩ := ruled.split
  have inside : ∀ (i : Nat) (id : Int), (ids p.done)[i]? = some id → ∃ b : Blob D, p.done[i]? = some b ∧ b.blobId = id := by
    intro i id found
    rw [ids, List.getElem?_map] at found
    exact Option.map_eq_some_iff.mp found
  have taken : ∀ i, (ids p.done).take i = ids (p.done.take i) := fun i => List.map_take.symm
  have rule : ∀ i blob id, new[i]? = some blob → (ids p.done)[i]? = some id →
      Rule ops settings old ((ids p.done).take i) counter blob id := by
    intro i blob id here found
    obtain ⟨b, done', rfl⟩ := inside i id found
    rw [taken]
    exact ruled.rule i blob b here done'
  refine ⟨?_, rule, ruled.nodup, ruled.bounded, ?_⟩
  · rw [done, List.append_nil] at whole
    rw [ids, List.length_map, ← length, whole]
  · intro i blob id here found unmatched o member unused fits
    rcases rule i blob id here found with ⟨o', least, -, rfl⟩ | ⟨far, -⟩
    · exact absurd (mem_ids.mpr ⟨o', least.mem, rfl⟩) unmatched
    · exact far o member ⟨fun earlier => unused (List.mem_of_mem_take earlier), fits⟩

theorem greedyTrackBlobs_ids (order : ∀ a b, ops.lt a b = decide (a < b)) {settings : Settings D} {old new blobs : List (Blob D)}
    {counter counter' : Int} (fresh : ∀ x ∈ ids old, x ≤ counter)
    (h : greedyTrackBlobs ops settings old new counter = some (blobs, counter')) :
    GreedyIds ops settings old new counter (ids blobs) counter' := by
  obtain ⟨⟨p, c⟩, ran, h⟩ := Option.bind_eq_some_iff.mp h
  obtain ⟨expired, ended, same⟩ := Option.map_eq_some_iff.mp h
  cases same
  have start : Ruled ops settings old new counter (greedyStart settings old new) counter :=
    ⟨rfl, rfl, ⟨[], rfl, rfl⟩, by simp [greedyStart], by simp [ids, greedyStart], List.nodup_nil, by simp [ids, greedyStart], le_rfl⟩
  have ruled := start.trackBlobs order fresh ran
  have done : p.todo = [] := by
    rw [trackBlobs_todo ran]
    exact List.drop_length
  rw [ids_expired ended]
  exact ruled.greedyIds done

/-- The greedy tracker gives each new blob the nearest old blob that fits and is left, or a fresh id, and it
does so in every update of a run. -/
theorem greedy_tracks (order : ∀ a b, ops.lt a b = decide (a < b)) (settings : Settings D) :
    (∀ old new counter, (∀ x ∈ ids old, x ≤ counter) →
      (∀ blobs counter', greedyTrackBlobs ops settings old new counter = some (blobs, counter') →
        GreedyIds ops settings old new counter (ids blobs) counter') ∧
      ((∀ b ∈ old ++ new, Tagged b) → (greedyTrackBlobs ops settings old new counter).isSome)) ∧
    ∀ mtdevMatch : Matching, mtdevMatch.Injective → ∀ kinds events (s : System D),
      Machine.attempt (System.step ops mtdevMatch) (.initial kinds) events = some s →
      ∀ (i : Nat) t, s.trackers[i]? = some t → t.kind = .greedy →
      ∀ frame report counter', update ops mtdevMatch t s.counter settings frame = some (report, counter') →
        GreedyIds ops settings (t.oldBlobs.map .older) (frame.map Detection.clone) s.counter (ids report.detected) counter' := by
  constructor
  · intro old new counter fresh
    exact ⟨fun blobs counter' h => greedyTrackBlobs_ids order fresh h, greedyTrackBlobs_isSome settings counter⟩
  · intro mtdevMatch injective kinds events s reached i t found greedy frame report counter' h
    exact greedyTrackBlobs_ids order (reached_fresh injective reached found) (update_greedy greedy h)

def greedySettings : Settings Int := { maxAge := 0, minAge := 0, maxRotationSpeed := 0, maxDistance := 10 }

/-- A blob at `(x, 0)`. -/
def blobAt (implements : String) (x fiducialId blobId : Int) : Blob Int where
  implements := implements.toList
  x := x
  y := 0
  angle := none
  fiducialId := some fiducialId
  blobId := blobId
  age := 0
  lastAngle := none
  fallenOver := none

/-- The second new blob is nearest to the blob that the first one took, and the third one is too far away. -/
theorem greedy_tracks_three :
    GreedyIds Doubles.integers greedySettings [blobAt "blob" 2 0 4, blobAt "blob" 0 0 5]
      [blobAt "blob,tracked" 1 0 0, blobAt "blob,tracked" 2 0 0, blobAt "blob,tracked" 9 0 0] 7 [4, 5, 8] 8 ∧
    (greedyTrackBlobs Doubles.integers greedySettings [blobAt "blob" 2 0 4] [blobAt "blob,tracked" 1 0 0] 7).isSome ∧
    GreedyIds Doubles.integers greedySettings [] [blobAt "blob,tracked" 1 0 0] 0 [1] 1 := by
  have rules := greedy_tracks (fun _ _ => rfl : ∀ a b, Doubles.integers.lt a b = decide (a < b)) greedySettings
  refine ⟨?_, ?_, ?_⟩
  · have run : (greedyTrackBlobs Doubles.integers greedySettings [blobAt "blob" 2 0 4, blobAt "blob" 0 0 5]
        [blobAt "blob,tracked" 1 0 0, blobAt "blob,tracked" 2 0 0, blobAt "blob,tracked" 9 0 0] 7).map
          (fun done => (ids done.1, done.2)) = some ([4, 5, 8], 8) := by
      decide +kernel
    obtain ⟨⟨blobs, counter'⟩, ran, same⟩ := Option.map_eq_some_iff.mp run
    obtain ⟨given, ends⟩ := Prod.mk.inj same
    subst ends
    have here : ids blobs = [4, 5, 8] := given
    rw [← here]
    exact (rules.1 _ _ 7 (by decide)).1 blobs _ ran
  · exact (rules.1 _ _ 7 (by decide)).2 (by simp [Tagged, blobAt])
  · have run : (update Doubles.integers matchNothing (.initial .greedy) 0 greedySettings
        [(blobAt "blob" 1 0 0).toDetection]).map (fun done => (ids done.1.detected, done.2)) = some ([1], 1) := by
      decide +kernel
    obtain ⟨⟨report, counter'⟩, ran, same⟩ := Option.map_eq_some_iff.mp run
    obtain ⟨given, ends⟩ := Prod.mk.inj same
    subst ends
    have here : ids report.detected = [1] := given
    rw [← here]
    exact rules.2 matchNothing matchNothing_injective [.greedy] [] (.initial [.greedy]) rfl 0 (.initial .greedy) rfl rfl _ report _ ran

end Movid.Tracker
