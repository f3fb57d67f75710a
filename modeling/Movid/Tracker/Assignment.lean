import Mathlib.Data.List.Pairwise
import Movid.Lib.Lists
import Movid.Tracker.System

/-!
# What the loop of `trackBlobs` gives each new blob

Either the id of an old blob that no other new blob of the frame has, or the next value of
the counter.
-/

namespace Movid.Tracker

variable {D : Type} {ops : Doubles D} {mtdevMatch : Matching}

/-- The blob in the list that stands for a blob of the frame. -/
def Carries (d : Detection D) (b : Blob D) : Prop :=
  b.implements = d.implements ++ ",tracked".toList ∧ b.x = d.x ∧ b.y = d.y

/-- If `b` is a fiducial or an object then so is `o`, and with the same fiducial id. -/
def SameFid (b o : Blob D) : Prop :=
  isFid b.implements = some true → isFid o.implements = some true ∧ b.fiducialId = o.fiducialId

/-- All that a round may change of a blob: its id, and the fiducial id of a volatile one. -/
def Kept (blob b : Blob D) : Prop :=
  b.implements = blob.implements ∧ b.x = blob.x ∧ b.y = blob.y ∧ b.age = blob.age

/-- What `mtdev_match` promises: no two new blobs get the same old one. -/
def Matching.Injective (mtdevMatch : Matching) : Prop :=
  ∀ distances new old, new < dimFinger → old < dimFinger →
    (mtdevMatch distances new old).Pairwise fun j k => 0 ≤ j → j ≠ k

/-! ### The greedy search -/

theorem consider_cases {reused : List Int} {blob old : Blob D} {newIsFid newIsVolatile : Bool}
    {closest result : Closest D}
    (h : consider ops reused blob newIsFid newIsVolatile closest old = some result) :
    result = closest ∨ (result.blob = some old ∧ old.blobId ∉ reused ∧
      ∃ oldIsFid, isFid old.implements = some oldIsFid ∧
        compatible blob old newIsFid newIsVolatile oldIsFid = some true) := by
  unfold consider at h
  split at h
  · cases h
    exact Or.inl rfl
  · rename_i unused
    obtain ⟨oldIsFid, tag, h⟩ := Option.bind_eq_some_iff.mp h
    obtain ⟨fits, rule, h⟩ := Option.map_eq_some_iff.mp h
    split at h
    · rename_i nearer
      obtain ⟨fits, _⟩ := (Bool.and_eq_true _ _).mp nearer
      cases h
      subst fits
      exact Or.inr ⟨rfl, unused, oldIsFid, tag, rule⟩
    · exact Or.inl h.symm

theorem closest_spec {reused : List Int} {blob : Blob D} {newIsFid newIsVolatile : Bool}
    {old : List (Blob D)} {closest result : Closest D} {o : Blob D}
    (h : old.foldlM (consider ops reused blob newIsFid newIsVolatile) closest = some result)
    (found : result.blob = some o) :
    closest.blob = some o ∨ (o ∈ old ∧ o.blobId ∉ reused ∧ ∃ oldIsFid, isFid o.implements = some oldIsFid ∧
      compatible blob o newIsFid newIsVolatile oldIsFid = some true) := by
  induction old generalizing closest with
  | nil =>
    cases h
    exact Or.inl found
  | cons first rest ih =>
    rw [List.foldlM_cons] at h
    obtain ⟨next, now, later⟩ := Option.bind_eq_some_iff.mp h
    rcases ih later with same | ⟨member, facts⟩
    · rcases consider_cases now with kept | ⟨picked, facts⟩
      · exact Or.inl (kept ▸ same)
      · obtain rfl : o = first := Option.some.inj (same.symm.trans picked)
        exact Or.inr ⟨List.mem_cons_self, facts⟩
    · exact Or.inr ⟨List.mem_cons_of_mem _ member, facts⟩

theorem copyFid_spec {blob closest b : Blob D} {newIsFid newIsVolatile oldIsFid : Bool}
    (newTag : isFid blob.implements = some newIsFid) (oldTag : isFid closest.implements = some oldIsFid)
    (fits : compatible blob closest newIsFid newIsVolatile oldIsFid = some true)
    (h : copyFid blob closest newIsFid newIsVolatile oldIsFid = some b) : Kept blob b ∧ SameFid b closest := by
  unfold copyFid at h
  unfold compatible at fits
  cases newIsFid with
  | false =>
    simp only [Bool.and_false, Bool.false_and, Bool.false_eq_true, if_false, Option.some.injEq] at h
    subst h
    refine ⟨⟨rfl, rfl, rfl, rfl⟩, fun fid => ?_⟩
    rw [newTag] at fid
    cases fid
  | true =>
    cases oldIsFid with
    | false => simp at fits
    | true =>
      cases newIsVolatile with
      | false =>
        simp only [Bool.and_true, Bool.and_false, Bool.false_eq_true, if_false, Option.some.injEq] at h
        subst h
        simp only [Bool.not_false, Bool.and_true, if_true] at fits
        obtain ⟨fid, newFid, fits⟩ := Option.bind_eq_some_iff.mp fits
        obtain ⟨other, oldFid, equal⟩ := Option.map_eq_some_iff.mp fits
        refine ⟨⟨rfl, rfl, rfl, rfl⟩, fun _ => ⟨oldTag, ?_⟩⟩
        rw [newFid, oldFid, beq_iff_eq.mp equal]
      | true =>
        simp only [Bool.and_true, if_true] at h
        obtain ⟨fid, oldFid, h⟩ := Option.bind_eq_some_iff.mp h
        obtain ⟨_, _, same⟩ := Option.map_eq_some_iff.mp h
        subst same
        exact ⟨⟨rfl, rfl, rfl, rfl⟩, fun _ => ⟨oldTag, oldFid.symm⟩⟩

theorem greedyTrack_cases {settings : Settings D} {old : List (Blob D)} {reused reused' : List Int}
    {counter counter' : Int} {blob b : Blob D}
    (h : greedyTrack ops settings old reused counter blob = some (b, reused', counter')) :
    Kept blob b ∧
      ((∃ o ∈ old, o.blobId ∉ reused ∧ b.blobId = o.blobId ∧ SameFid b o ∧
          reused' = reused ++ [o.blobId] ∧ counter' = counter) ∨
        (b.blobId = counter + 1 ∧ reused' = reused ∧ counter' = counter + 1)) := by
  unfold greedyTrack at h
  obtain ⟨newIsFid, newTag, h⟩ := Option.bind_eq_some_iff.mp h
  obtain ⟨newIsVolatile, _, h⟩ := Option.bind_eq_some_iff.mp h
  obtain ⟨found, search, h⟩ := Option.bind_eq_some_iff.mp h
  split at h
  · rename_i closest picked
    obtain ⟨oldIsFid, oldTag, h⟩ := Option.bind_eq_some_iff.mp h
    obtain ⟨copied, copy, same⟩ := Option.map_eq_some_iff.mp h
    rcases closest_spec search picked with none | ⟨member, unused, isFid', tag, fits⟩
    · cases none
    · obtain rfl : isFid' = oldIsFid := Option.some.inj (tag.symm.trans oldTag)
      obtain ⟨kept, fid⟩ := copyFid_spec newTag oldTag fits copy
      cases same
      exact ⟨kept, Or.inl ⟨closest, member, unused, rfl, fid, rfl, rfl⟩⟩
  · cases h
    exact ⟨⟨rfl, rfl, rfl, rfl⟩, Or.inr ⟨rfl, rfl, rfl⟩⟩

theorem munkresTrack_cases {old : List (Blob D)} {j counter counter' : Int} {blob b : Blob D}
    (h : munkresTrack old j counter blob = some (b, counter')) :
    Kept blob b ∧
      ((0 ≤ j ∧ (ids old)[j.toNat]? = some b.blobId ∧ counter' = counter) ∨
        (b.blobId = counter + 1 ∧ counter' = counter + 1)) := by
  unfold munkresTrack at h
  obtain ⟨id, pick, h⟩ := Option.map_eq_some_iff.mp h
  split at h
  · cases h
    exact ⟨⟨rfl, rfl, rfl, rfl⟩, Or.inr ⟨rfl, rfl⟩⟩
  · rename_i drawn
    cases h
    refine ⟨⟨rfl, rfl, rfl, rfl⟩, Or.inl ?_⟩
    split at pick
    · rename_i valid
      exact ⟨valid, pick, rfl⟩
    · exact absurd (Option.some.inj pick).symm drawn

/-! ### The loop as a whole -/

/-- What holds inside the loop, when `oldBlobs` is the list of the last frame. -/
structure Progress.Ok (kind : Kind) (counter : Int) (oldBlobs : List (Blob D)) (p : Progress D) : Prop where
  old : p.old = oldBlobs.map .older
  nodup : (ids p.done).Nodup
  bounded : ∀ x ∈ ids p.done, x ≤ counter
  carries : List.Forall₂ Carries p.frame (p.done ++ p.todo)
  young : ∀ b ∈ p.done ++ p.todo, b.age = 0
  fids : kind = .greedy → ∀ b ∈ p.done, ∀ o ∈ p.old, o.blobId = b.blobId → SameFid b o
  reused : kind = .greedy → ∀ x ∈ ids p.done, x ∈ ids p.old → x ∈ p.reused
  planned : kind = .munkres → p.n2s.Pairwise fun j k => 0 ≤ j → j ≠ k
  unplanned : kind = .munkres → ∀ j ∈ p.n2s, 0 ≤ j → ∀ x, (ids p.old)[j.toNat]? = some x → x ∉ ids p.done

theorem ids_older (blobs : List (Blob D)) : ids (blobs.map .older) = ids blobs := by
  simp [ids, Blob.older]

theorem carries_clone (frame : List (Detection D)) : List.Forall₂ Carries frame (frame.map Detection.clone) := by
  rw [List.forall₂_map_right_iff, List.forall₂_same]
  intro d _
  exact ⟨rfl, rfl, rfl⟩

theorem begin_ok (injective : mtdevMatch.Injective) {kind : Kind} {settings : Settings D}
    {oldBlobs : List (Blob D)} {frame : List (Detection D)} {p : Progress D}
    (h : begin ops mtdevMatch kind settings oldBlobs frame = some p) (counter : Int) :
    p.Ok kind counter oldBlobs := by
  have carries := carries_clone frame
  have young : ∀ b ∈ frame.map (Detection.clone (D := D)), b.age = 0 := by
    simp [Detection.clone]
  unfold begin at h
  cases kind with
  | greedy =>
    cases h
    exact ⟨rfl, List.nodup_nil, by simp [ids], carries, young, by simp, by simp [ids], by simp, by simp⟩
  | munkres =>
    simp only [] at h
    split at h
    · rename_i small
      cases h
      have planned := injective (distances ops (frame.map Detection.clone) (oldBlobs.map .older)) _ _ small.2 small.1
      exact ⟨rfl, List.nodup_nil, by simp [ids], carries, young, by simp, by simp, fun _ => planned, by simp [ids]⟩
    · cases h

theorem Progress.Ok.mono {kind : Kind} {counter counter' : Int} {oldBlobs : List (Blob D)} {p : Progress D}
    (ok : p.Ok kind counter oldBlobs) (later : counter ≤ counter') : p.Ok kind counter' oldBlobs :=
  { ok with bounded := fun x member => (ok.bounded x member).trans later }

/-- A round, seen from the loop: the next blob is done, under an id that is new to the loop. -/
structure Round (p q : Progress D) (counter counter' : Int) (blob b : Blob D) : Prop where
  todo : p.todo = blob :: q.todo
  done : q.done = p.done ++ [b]
  kept : Kept blob b
  frame : q.frame = p.frame
  old : q.old = p.old
  settings : q.settings = p.settings
  id : (b.blobId ∈ ids p.old ∧ counter' = counter) ∨ (b.blobId = counter + 1 ∧ counter' = counter + 1)
  unused : b.blobId ∉ ids p.done

theorem mem_ids {blobs : List (Blob D)} {x : Int} : x ∈ ids blobs ↔ ∃ b ∈ blobs, b.blobId = x := List.mem_map

theorem ids_append (left right : List (Blob D)) : ids (left ++ right) = ids left ++ ids right := List.map_append

theorem mem_ids_concat {blobs : List (Blob D)} {b : Blob D} {x : Int} :
    x ∈ ids (blobs ++ [b]) ↔ x ∈ ids blobs ∨ x = b.blobId := by
  rw [ids_append, List.mem_append]
  exact or_congr_right List.mem_singleton

theorem nodup_ids_concat {blobs : List (Blob D)} {b : Blob D} (nodup : (ids blobs).Nodup) (unused : b.blobId ∉ ids blobs) :
    (ids (blobs ++ [b])).Nodup := by
  rw [ids_append]
  refine List.nodup_append.mpr ⟨nodup, List.nodup_singleton _, ?_⟩
  rintro x inside y last rfl
  obtain rfl : x = b.blobId := List.mem_singleton.mp last
  exact unused inside

theorem Round.mem_done {p q : Progress D} {counter counter' : Int} {blob b : Blob D} (round : Round p q counter counter' blob b)
    {x : Int} : x ∈ ids q.done ↔ x ∈ ids p.done ∨ x = b.blobId := by
  rw [round.done]
  exact mem_ids_concat

theorem Round.mem_blobs {p q : Progress D} {counter counter' : Int} {blob b : Blob D} (round : Round p q counter counter' blob b)
    {c : Blob D} (member : c ∈ q.done ++ q.todo) : c ∈ p.done ++ p.todo ∨ c = b := by
  rw [round.done] at member
  rw [round.todo]
  simp only [List.mem_append, List.mem_cons, List.not_mem_nil, or_false] at member ⊢
  rcases member with (before | same) | after
  · exact Or.inl (Or.inl before)
  · exact Or.inr same
  · exact Or.inl (Or.inr (Or.inr after))

theorem Progress.Ok.round {kind : Kind} {counter counter' : Int} {oldBlobs : List (Blob D)} {p q : Progress D}
    {blob b : Blob D} (ok : p.Ok kind counter oldBlobs) (old : ∀ x ∈ ids p.old, x ≤ counter)
    (round : Round p q counter counter' blob b)
    (fids : kind = .greedy → ∀ o ∈ p.old, o.blobId = b.blobId → SameFid b o)
    (reused : kind = .greedy → (∀ x ∈ p.reused, x ∈ q.reused) ∧ (b.blobId ∈ ids p.old → b.blobId ∈ q.reused))
    (plan : kind = .munkres → ∃ j, p.n2s = j :: q.n2s ∧
      ∀ k ∈ q.n2s, 0 ≤ k → (ids p.old)[k.toNat]? ≠ some b.blobId) :
    q.Ok kind counter' oldBlobs where
  old := round.old.trans ok.old
  nodup := by
    rw [round.done]
    exact nodup_ids_concat ok.nodup round.unused
  bounded x member := by
    rcases round.mem_done.mp member with before | rfl
    · have := ok.bounded x before
      rcases round.id with ⟨_, same⟩ | ⟨_, same⟩ <;> omega
    · rcases round.id with ⟨known, same⟩ | ⟨drawn, same⟩
      · rw [same]
        exact old _ known
      · omega
  carries := by
    have carries := ok.carries
    obtain ⟨implements, x, y, _⟩ := round.kept
    rw [round.frame, round.done, List.append_assoc, List.singleton_append]
    rw [round.todo] at carries
    exact Lists.forall₂_replace
      (fun d before => ⟨implements.trans before.1, x.trans before.2.1, y.trans before.2.2⟩) carries
  young c member := by
    rcases round.mem_blobs member with before | rfl
    · exact ok.young c before
    · exact round.kept.2.2.2.trans (ok.young blob (by simp [round.todo]))
  fids greedy c member o inside same := by
    rw [round.done, List.mem_append, List.mem_singleton] at member
    rw [round.old] at inside
    rcases member with before | rfl
    · exact ok.fids greedy c before o inside same
    · exact fids greedy o inside same
  reused greedy x member inside := by
    rw [round.old] at inside
    rcases round.mem_done.mp member with before | rfl
    · exact (reused greedy).1 x (ok.reused greedy x before inside)
    · exact (reused greedy).2 inside
  planned munkres := by
    obtain ⟨j, shape, _⟩ := plan munkres
    have planned := ok.planned munkres
    rw [shape] at planned
    exact planned.of_cons
  unplanned munkres k member valid x points := by
    obtain ⟨j, shape, other⟩ := plan munkres
    rw [round.old] at points
    rw [round.mem_done, not_or]
    refine ⟨ok.unplanned munkres k (by simp [shape, member]) valid x points, ?_⟩
    rintro rfl
    exact other k member valid points

/-- What the next round does to the invariant of the loop and to the counter. -/
structure Progress.Next (kind : Kind) (oldBlobs : List (Blob D)) (p q : Progress D) (counter counter' : Int) :
    Prop where
  ok : q.Ok kind counter' oldBlobs
  grows : counter ≤ counter'
  settings : q.settings = p.settings
  drawn : ∀ x ∈ ids q.done, x ∈ ids p.done ∨ x ∈ ids oldBlobs ∨ (counter < x ∧ x ≤ counter')

theorem Round.next {kind : Kind} {counter counter' : Int} {oldBlobs : List (Blob D)} {p q : Progress D}
    {blob b : Blob D} (round : Round p q counter counter' blob b) (old : p.old = oldBlobs.map .older)
    (ok : q.Ok kind counter' oldBlobs) : p.Next kind oldBlobs q counter counter' where
  ok := ok
  grows := by rcases round.id with ⟨_, same⟩ | ⟨_, same⟩ <;> omega
  settings := round.settings
  drawn x member := by
    rcases round.mem_done.mp member with before | rfl
    · exact Or.inl before
    · rcases round.id with ⟨known, _⟩ | ⟨drawn, same⟩
      · rw [old, ids_older] at known
        exact Or.inr (Or.inl known)
      · exact Or.inr (Or.inr (by omega))

theorem greedy_next {counter counter' : Int} {oldBlobs : List (Blob D)} {p : Progress D}
    (ok : p.Ok .greedy counter oldBlobs) (nodup : (ids p.old).Nodup) (old : ∀ x ∈ ids p.old, x ≤ counter)
    {blob b : Blob D} {todo : List (Blob D)} (shape : p.todo = blob :: todo) {reused : List Int}
    (h : greedyTrack ops p.settings p.old p.reused counter blob = some (b, reused, counter')) :
    p.Next .greedy oldBlobs { p with done := p.done ++ [b], todo, reused } counter counter' := by
  obtain ⟨kept, ⟨o, member, unused, id, fid, rfl, rfl⟩ | ⟨id, rfl, rfl⟩⟩ := greedyTrack_cases h
  · have known : b.blobId ∈ ids p.old := mem_ids.mpr ⟨o, member, id.symm⟩
    have round : Round p { p with done := p.done ++ [b], todo, reused := p.reused ++ [o.blobId] }
        counter' counter' blob b :=
      ⟨shape, rfl, kept, rfl, rfl, rfl, Or.inl ⟨known, rfl⟩,
        fun done => unused (id ▸ ok.reused rfl _ done known)⟩
    refine round.next ok.old (ok.round old round (fun _ other inside same => ?_) (fun _ => ?_) (by simp))
    · rw [List.inj_on_of_nodup_map nodup inside member (same.trans id)]
      exact fid
    · exact ⟨fun x before => List.mem_append_left _ before, fun _ => by simp [id]⟩
  · have fresh (x : Int) (bound : x ≤ counter) : x ≠ b.blobId := by omega
    have round : Round p { p with done := p.done ++ [b], todo } counter (counter + 1) blob b :=
      ⟨shape, rfl, kept, rfl, rfl, rfl, Or.inr ⟨id, rfl⟩, fun done => fresh _ (ok.bounded _ done) rfl⟩
    refine round.next ok.old (ok.round old round (fun _ other inside same => ?_) (fun _ => ?_) (by simp))
    · exact absurd same (fresh _ (old _ (mem_ids.mpr ⟨other, inside, rfl⟩)))
    · exact ⟨fun x before => before, fun known => absurd rfl (fresh _ (old _ known))⟩

theorem munkres_next {counter counter' : Int} {oldBlobs : List (Blob D)} {p : Progress D}
    (ok : p.Ok .munkres counter oldBlobs) (nodup : (ids p.old).Nodup) (old : ∀ x ∈ ids p.old, x ≤ counter)
    {blob b : Blob D} {todo : List (Blob D)} (shape : p.todo = blob :: todo) {j : Int} {n2s : List Int} (plan : p.n2s = j :: n2s)
    (h : munkresTrack p.old j counter blob = some (b, counter')) :
    p.Next .munkres oldBlobs { p with done := p.done ++ [b], todo, n2s } counter counter' := by
  have planned := ok.planned rfl
  rw [plan, List.pairwise_cons] at planned
  obtain ⟨kept, ⟨valid, id, rfl⟩ | ⟨id, rfl⟩⟩ := munkresTrack_cases h
  · have round : Round p { p with done := p.done ++ [b], todo, n2s } counter' counter' blob b :=
      ⟨shape, rfl, kept, rfl, rfl, rfl, Or.inl ⟨List.mem_of_getElem? id, rfl⟩,
        ok.unplanned rfl j (by simp [plan]) valid _ id⟩
    refine round.next ok.old (ok.round old round (by simp) (by simp) fun _ => ⟨j, plan, ?_⟩)
    intro k member other points
    -- Ids of old blobs are distinct, so the two entries would be the same.
    have same := (List.getElem?_inj (List.getElem?_eq_some_iff.mp id).1 nodup).mp (id.trans points.symm)
    exact planned.1 k member valid (by omega)
  · have fresh (x : Int) (bound : x ≤ counter) : x ≠ b.blobId := by omega
    have round : Round p { p with done := p.done ++ [b], todo, n2s } counter (counter + 1) blob b :=
      ⟨shape, rfl, kept, rfl, rfl, rfl, Or.inr ⟨id, rfl⟩, fun done => fresh _ (ok.bounded _ done) rfl⟩
    refine round.next ok.old (ok.round old round (by simp) (by simp) fun _ => ⟨j, plan, ?_⟩)
    intro k _ _ points
    exact fresh _ (old _ (List.mem_of_getElem? points)) rfl

theorem track_next {kind : Kind} {counter counter' : Int} {oldBlobs : List (Blob D)} {p q : Progress D}
    (ok : p.Ok kind counter oldBlobs) (nodup : (ids oldBlobs).Nodup) (old : ∀ x ∈ ids oldBlobs, x ≤ counter)
    (h : track ops kind p counter = some (q, counter')) : p.Next kind oldBlobs q counter counter' := by
  have ids' : ids p.old = ids oldBlobs := by rw [ok.old, ids_older]
  rw [← ids'] at nodup old
  cases track_moves h with
  | ended => exact ⟨ok, Int.le_refl _, rfl, fun x member => Or.inl member⟩
  | greedy next tracked => exact greedy_next ok nodup old next tracked
  | munkres next plan tracked => exact munkres_next ok nodup old next plan tracked

end Movid.Tracker
