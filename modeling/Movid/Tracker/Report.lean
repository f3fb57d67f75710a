import Movid.Tracker.Assignment

/-!
# What one update leaves in the lists

After an update the list holds the blobs of the frame, with the ages they take over, and then
the lost blobs that are still inside the window.
-/

namespace Movid.Tracker

variable {D : Type} {ops : Doubles D}

/-! ### The loop over the old blobs -/

/-- A new blob with the age of the old blob of the same id. -/
def renewed (settings : Settings D) (old : List (Blob D)) (blob : Blob D) : Blob D :=
  match old.find? (·.blobId == blob.blobId) with
  | some o => blob.setAge (settings.renew o.age)
  | none => blob

/-- The old blobs that were not found but stay. -/
def lost (settings : Settings D) (old new : List (Blob D)) : List (Blob D) :=
  old.filter fun o => o.blobId ∉ ids new && settings.inWindow o.age

theorem find?_of_not_mem {blobs : List (Blob D)} {x : Int} (absent : x ∉ ids blobs) :
    blobs.find? (·.blobId == x) = none := by
  rw [List.find?_eq_none]
  intro b member same
  exact absent (mem_ids.mpr ⟨b, member, by simpa using same⟩)

theorem find?_of_mem {blobs : List (Blob D)} (nodup : (ids blobs).Nodup) {o : Blob D} (member : o ∈ blobs) :
    blobs.find? (·.blobId == o.blobId) = some o := by
  cases found : blobs.find? (·.blobId == o.blobId) with
  | none => exact absurd (beq_self_eq_true o.blobId) (List.find?_eq_none.mp found o member)
  | some b =>
    have same := List.find?_some found
    rw [List.inj_on_of_nodup_map nodup (List.mem_of_find?_eq_some found) member (by simpa using same)]

theorem retain_of_mem (settings : Settings D) {new : List (Blob D)} (nodup : (ids new).Nodup) {o : Blob D}
    (member : o.blobId ∈ ids new) :
    retain settings new o =
      new.map fun b => if b.blobId == o.blobId then b.setAge (settings.renew o.age) else b := by
  unfold retain
  cases found : new.findIdx? (·.blobId == o.blobId) with
  | none =>
    obtain ⟨b, inside, same⟩ := mem_ids.mp member
    have missed := List.findIdx?_eq_none_iff.mp found b inside
    simp [same] at missed
  | some i =>
    refine Lists.modify_findIdx? found ?_
    apply (List.pairwise_map.mp nodup).imp
    intro a b differ same
    simp only [beq_iff_eq] at same
    simp [← same, Ne.symm differ]

theorem retain_of_not_mem (settings : Settings D) {new : List (Blob D)} {o : Blob D}
    (absent : o.blobId ∉ ids new) :
    retain settings new o = if settings.inWindow o.age then new ++ [o] else new := by
  have missed : new.findIdx? (·.blobId == o.blobId) = none := by
    rw [List.findIdx?_eq_none_iff]
    intro b member
    by_contra same
    exact absent (mem_ids.mpr ⟨b, member, by simpa using same⟩)
  simp only [retain, missed]

theorem ids_retain (settings : Settings D) {new : List (Blob D)} (nodup : (ids new).Nodup) {o : Blob D}
    (member : o.blobId ∈ ids new) : ids (retain settings new o) = ids new := by
  rw [retain_of_mem settings nodup member]
  unfold ids
  rw [List.map_map]
  apply List.map_congr_left
  intro b _
  simp only [Function.comp_apply]
  split <;> rfl

/-- Nothing later in the list has the id, so the age is taken over once. -/
theorem renewed_cons (settings : Settings D) {o : Blob D} {old : List (Blob D)} (absent : o.blobId ∉ ids old) (b : Blob D) :
    renewed settings (o :: old) b =
      renewed settings old (if b.blobId == o.blobId then b.setAge (settings.renew o.age) else b) := by
  simp only [renewed, List.find?_cons]
  by_cases same : b.blobId = o.blobId
  · simp only [same, beq_self_eq_true, if_true]
    rw [show (b.setAge (settings.renew o.age)).blobId = o.blobId from same, find?_of_not_mem absent]
  · simp only [beq_eq_false_iff_ne.mpr same, beq_eq_false_iff_ne.mpr (Ne.symm same), Bool.false_eq_true, if_false]

theorem lost_concat (settings : Settings D) {old : List (Blob D)} {o : Blob D} (absent : o.blobId ∉ ids old)
    (new : List (Blob D)) : lost settings old (new ++ [o]) = lost settings old new := by
  apply List.filter_congr
  intro b inside
  have differ : b.blobId ≠ o.blobId := fun same => absent (mem_ids.mpr ⟨b, inside, same⟩)
  simp [mem_ids_concat, differ]

theorem foldl_retain (settings : Settings D) {old new : List (Blob D)} (oldNodup : (ids old).Nodup)
    (newNodup : (ids new).Nodup) :
    old.foldl (retain settings) new = new.map (renewed settings old) ++ lost settings old new := by
  induction old generalizing new with
  | nil =>
    have same : renewed settings [] = id := rfl
    simp [same, lost]
  | cons o old ih =>
    obtain ⟨absent, rest⟩ : o.blobId ∉ ids old ∧ (ids old).Nodup := List.nodup_cons.mp oldNodup
    rw [List.foldl_cons]
    by_cases member : o.blobId ∈ ids new
    · have same := ids_retain settings newNodup member
      rw [ih rest (same ▸ newNodup)]
      congr 1
      · rw [retain_of_mem settings newNodup member, List.map_map]
        exact List.map_congr_left fun b _ => (renewed_cons settings absent b).symm
      · simp only [lost, same, List.filter_cons]
        simp [member]
    · rw [retain_of_not_mem settings member]
      have others : ∀ b ∈ new, renewed settings (o :: old) b = renewed settings old b := by
        intro b inside
        have differ : b.blobId ≠ o.blobId := fun same => member (mem_ids.mpr ⟨b, inside, same⟩)
        rw [renewed_cons settings absent, if_neg (by simpa using differ)]
      rw [List.map_congr_left others]
      cases window : settings.inWindow o.age with
      | false =>
        rw [if_neg (by simp), ih rest newNodup]
        simp [lost, window]
      | true =>
        have kept : renewed settings old o = o := by simp only [renewed, find?_of_not_mem absent]
        rw [if_pos rfl, ih rest (nodup_ids_concat newNodup member), List.map_append, lost_concat settings absent]
        simp [lost, member, window, kept]

/-! ### What the loops before it keep -/

/-- `trackAngles` changes what it tracks and nothing else. -/
def Angled (b b' : Blob D) : Prop :=
  b' = { b with angle := b'.angle, lastAngle := b'.lastAngle, fallenOver := b'.fallenOver }

theorem trackAngle_angled {settings : Settings D} {old : List (Blob D)} {b b' : Blob D}
    (h : trackAngle ops settings old b = some b') : Angled b b' := by
  unfold trackAngle at h
  obtain ⟨tracked, _, h⟩ := Option.bind_eq_some_iff.mp h
  split at h
  · obtain ⟨rad, _, h⟩ := Option.bind_eq_some_iff.mp h
    simp only [] at h
    split at h
    · cases h
      rfl
    · obtain ⟨fallenOver, _, h⟩ := Option.bind_eq_some_iff.mp h
      obtain ⟨lastAngle, _, same⟩ := Option.map_eq_some_iff.mp h
      rw [← same]
      rfl
  · cases h
    rfl

theorem expire_spec {settings : Settings D} {b b' : Blob D} (h : expire settings b = some b') :
    b' = b.setAge b'.age ∧ (isVolatile b.implements = some false → b' = b) := by
  unfold expire at h
  obtain ⟨newIsVolatile, tag, h⟩ := Option.bind_eq_some_iff.mp h
  split at h
  · rename_i set
    subst set
    obtain ⟨fid, _, same⟩ := Option.map_eq_some_iff.mp h
    refine ⟨?_, fun calm => ?_⟩
    · rw [← same]
      split <;> rfl
    · rw [tag] at calm
      cases calm
  · cases h
    exact ⟨rfl, fun _ => rfl⟩

theorem ids_of_forall₂ {R : Blob D → Blob D → Prop} (keeps : ∀ b b', R b b' → b'.blobId = b.blobId)
    {l l' : List (Blob D)} (h : List.Forall₂ R l l') : ids l' = ids l := by
  induction h with
  | nil => rfl
  | cons head _ ih => exact congrArg₂ List.cons (keeps _ _ head) ih

/-! ### The whole update -/

/-- An update of a tracker whose list was `before`. -/
structure Report.Ok (kind : Kind) (before : List (Blob D)) (r : Report D) : Prop where
  old : r.old = before.map .older
  nodup : (ids r.detected).Nodup
  carries : List.Forall₂ Carries r.frame r.detected
  young : ∀ b ∈ r.detected, isVolatile b.implements = some false → b.age = 0
  fids : kind = .greedy → ∀ b ∈ r.detected, ∀ o ∈ r.old, o.blobId = b.blobId → SameFid b o
  list : ∃ new, List.Forall₂ Angled r.detected new ∧
    r.list = new.map (renewed r.settings r.old) ++ lost r.settings r.old new
  pushed : r.pushed = r.list.filter fun b => r.settings.inWindow b.age

theorem detected_spec {kind : Kind} {p : Progress D} {detected : List (Blob D)}
    (h : p.detected kind = some detected) :
    List.Forall₂ (fun b b' => b' = b.setAge b'.age ∧ (isVolatile b.implements = some false → b' = b))
      p.done detected := by
  cases kind with
  | greedy => exact (Lists.forall₂_of_mapM h).imp fun _ _ => expire_spec
  | munkres =>
    cases h
    exact List.forall₂_same.mpr fun b _ => ⟨rfl, fun _ => rfl⟩

theorem finish_ok {kind : Kind} {counter : Int} {oldBlobs : List (Blob D)} {p : Progress D} {r : Report D}
    (ok : p.Ok kind counter oldBlobs) (empty : p.todo = []) (oldNodup : (ids oldBlobs).Nodup)
    (h : finish ops kind p = some r) :
    r.Ok kind oldBlobs ∧ r.settings = p.settings ∧ ids r.detected = ids p.done := by
  obtain ⟨detected, new, first, angles, rfl⟩ := finish_spec h
  have expired := detected_spec first
  have angled := (Lists.forall₂_of_mapM angles).imp fun _ _ => trackAngle_angled
  have ids' : ids detected = ids p.done := ids_of_forall₂ (fun b b' same => by rw [same.1]; rfl) expired
  have idsNew : ids new = ids detected := ids_of_forall₂ (fun b b' same => by rw [same]) angled
  have carries := ok.carries
  rw [empty, List.append_nil] at carries
  refine ⟨⟨ok.old, ids' ▸ ok.nodup, ?_, ?_, ?_, ⟨new, angled, ?_⟩, rfl⟩, rfl, ids'⟩
  · refine Lists.forall₂_comp (fun d b b' before after => ?_) carries expired
    rw [after.1]
    exact before
  · intro b' member calm
    obtain ⟨b, inside, same, keeps⟩ := Lists.forall₂_mem_right expired member
    have young := ok.young b (List.mem_append_left _ inside)
    rw [same] at calm
    rw [keeps calm]
    exact young
  · intro greedy b' member o inside same
    obtain ⟨b, before, shape, _⟩ := Lists.forall₂_mem_right expired member
    rw [shape] at same ⊢
    exact ok.fids greedy b before o inside same
  · refine foldl_retain p.settings ?_ (by rw [idsNew, ids']; exact ok.nodup)
    rw [ok.old, ids_older]
    exact oldNodup

theorem renewed_blobId (settings : Settings D) (old : List (Blob D)) (b : Blob D) :
    (renewed settings old b).blobId = b.blobId := by
  unfold renewed
  split <;> rfl

theorem Report.Ok.list_split {kind : Kind} {before : List (Blob D)} {r : Report D} (ok : r.Ok kind before) :
    ∃ found lost, r.list = found ++ lost ∧ List.Forall₂ Carries r.frame found ∧ ids found = ids r.detected ∧
      lost.Sublist (before.map .older) ∧ ∀ b ∈ lost, b.blobId ∉ ids r.detected := by
  obtain ⟨new, angled, list⟩ := ok.list
  have idsNew : ids new = ids r.detected := ids_of_forall₂ (fun b b' same => by rw [same]) angled
  refine ⟨_, _, list, ?_, ?_, ?_, ?_⟩
  · rw [List.forall₂_map_right_iff]
    refine Lists.forall₂_comp (fun d b b' carries same => ?_) ok.carries angled
    have kept : Carries d b' := by rw [same]; exact carries
    unfold renewed
    split <;> exact kept
  · rw [← idsNew]
    unfold ids
    rw [List.map_map]
    exact List.map_congr_left fun b _ => renewed_blobId r.settings r.old b
  · rw [← ok.old]
    exact List.filter_sublist
  · intro b member
    obtain ⟨_, kept⟩ := List.mem_filter.mp member
    obtain ⟨absent, _⟩ := (Bool.and_eq_true _ _).mp kept
    rw [← idsNew]
    exact of_decide_eq_true absent

theorem Report.Ok.ids_list {kind : Kind} {before : List (Blob D)} {r : Report D} (ok : r.Ok kind before) :
    ∀ x ∈ ids r.list, x ∈ ids r.detected ∨ x ∈ ids before := by
  obtain ⟨found, lost, list, _, ids', sub, _⟩ := ok.list_split
  intro x member
  rw [list, ids_append, List.mem_append, ids'] at member
  apply member.imp_right
  intro member
  rw [← ids_older]
  exact (sub.map _).mem member

theorem Report.Ok.list_nodup {kind : Kind} {before : List (Blob D)} {r : Report D} (ok : r.Ok kind before)
    (nodup : (ids before).Nodup) : (ids r.list).Nodup := by
  obtain ⟨found, lost, list, _, ids', sub, apart⟩ := ok.list_split
  rw [list, ids_append, ids']
  refine List.nodup_append.mpr ⟨ok.nodup, ?_, ?_⟩
  · rw [← ids_older] at nodup
    exact (sub.map _).nodup nodup
  · rintro x inside y member rfl
    obtain ⟨b, left, rfl⟩ := mem_ids.mp member
    exact apart b left inside

end Movid.Tracker
