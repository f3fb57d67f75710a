import Movid.Tracker.Lifetime

/-!
# Fiducial ids along a greedy track

A track is a fiducial for a while, always with the same fiducial id, and then a plain touch
for good.
-/

namespace Movid.Tracker

variable {D : Type} {ops : Doubles D} {mtdevMatch : Matching}

def Report.carried (r : Report D) : List (Blob D) := r.old ++ r.detected

theorem SameFid.refl (b : Blob D) : SameFid b b := fun fid => ⟨fid, rfl⟩

theorem SameFid.trans {b c d : Blob D} (first : SameFid b c) (second : SameFid c d) : SameFid b d := by
  intro fid
  obtain ⟨fid, same⟩ := first fid
  obtain ⟨fid, same'⟩ := second fid
  exact ⟨fid, same.trans same'⟩

theorem mem_seen {r : Report D} {b : Blob D} (member : b ∈ r.carried) : b.blobId ∈ r.seen := by
  rcases List.mem_append.mp member with old | new
  · exact List.mem_append_left _ (mem_ids.mpr ⟨b, old, rfl⟩)
  · exact List.mem_append_right _ (mem_ids.mpr ⟨b, new, rfl⟩)

theorem Report.Ok.list_source {kind : Kind} {before : List (Blob D)} {r : Report D} (ok : r.Ok kind before)
    {o : Blob D} (member : o ∈ r.list) :
    ∃ c, o.blobId = c.blobId ∧ SameFid o c ∧ (c ∈ r.detected ∨ (c ∈ r.old ∧ c.blobId ∉ ids r.detected)) := by
  obtain ⟨new, angled, list⟩ := ok.list
  have idsNew : ids new = ids r.detected := ids_of_forall₂ (fun b b' same => by rw [same]) angled
  rw [list, List.mem_append] at member
  rcases member with found | left
  · obtain ⟨b, inside, rfl⟩ := List.mem_map.mp found
    obtain ⟨c, origin, same⟩ := Lists.forall₂_mem_right angled inside
    have fid : SameFid (renewed r.settings r.old b) c := by
      have plain : SameFid b c := by rw [same]; exact SameFid.refl c
      unfold renewed
      split <;> exact plain
    exact ⟨c, by rw [renewed_blobId, same], fid, Or.inl origin⟩
  · obtain ⟨origin, kept⟩ := List.mem_filter.mp left
    obtain ⟨absent, _⟩ := (Bool.and_eq_true _ _).mp kept
    exact ⟨o, rfl, SameFid.refl o, Or.inr ⟨origin, idsNew ▸ of_decide_eq_true absent⟩⟩

section Greedy

variable {counter : Int} {t : State D}

theorem State.Ok.old_nodup (ok : t.Ok counter) {k : Nat} {r : Report D} (found : t.reports[k]? = some r) :
    (ids r.old).Nodup := by
  rw [(ok.report k r found).old, ids_older]
  exact ok.listBefore_nodup k

def Settled (reports : List (Report D)) (l : Nat) : Prop :=
  ∀ o ∈ listBefore reports l, ∀ k r, k < l → reports[k]? = some r → ∀ b ∈ r.carried, b.blobId = o.blobId → SameFid o b

theorem State.Ok.carried_sameFid (ok : t.Ok counter) (greedy : t.kind = .greedy) {l : Nat}
    (settled : Settled t.reports l) {q : Report D} (found : t.reports[l]? = some q) {c : Blob D}
    (member : c ∈ q.carried) {k : Nat} {r : Report D} (earlier : k < l) (found' : t.reports[k]? = some r)
    {b : Blob D} (inside : b ∈ r.carried) (same : b.blobId = c.blobId) : SameFid c b := by
  have report := ok.report l q found
  have old (o : Blob D) (origin : o ∈ q.old) (same : b.blobId = o.blobId) : SameFid o b := by
    rw [report.old] at origin
    obtain ⟨before, listed, rfl⟩ := List.mem_map.mp origin
    exact settled before listed k r earlier found' b inside same
  rcases List.mem_append.mp member with before | new
  · exact old c before same
  · by_cases known : c.blobId ∈ ids q.old
    · obtain ⟨o, origin, match_⟩ := mem_ids.mp known
      exact (report.fids greedy c new o origin match_).trans (old o origin (same.trans match_.symm))
    · exact absurd (same ▸ mem_seen inside)
        (ok.fresh k l r q earlier found' found c.blobId (mem_ids.mpr ⟨c, new, rfl⟩) known)

theorem State.Ok.settled (ok : t.Ok counter) (greedy : t.kind = .greedy) (l : Nat) : Settled t.reports l := by
  induction l with
  | zero => exact fun o _ k r earlier => absurd earlier (Nat.not_lt_zero k)
  | succ l ih =>
    intro o member k r earlier found b inside same
    cases last : t.reports[l]? with
    | none => simp [listBefore, last] at member
    | some q =>
      rw [listBefore_succ last] at member
      have report := ok.report l q last
      obtain ⟨c, id, fid, source⟩ := report.list_source member
      apply fid.trans
      rcases Nat.lt_succ_iff_lt_or_eq.mp earlier with before | rfl
      · have carried : c ∈ q.carried := by
          rcases source with new | ⟨old, _⟩
          · exact List.mem_append_right _ new
          · exact List.mem_append_left _ old
        exact ok.carried_sameFid greedy ih last carried before found inside (same.trans id)
      · rw [last] at found
        cases found
        -- In one update a blob is compared with itself, or a new one with an old one.
        rcases source with new | ⟨old, absent⟩ <;> rcases List.mem_append.mp inside with before | now
        · exact report.fids greedy c new b before (same.trans id)
        · rw [List.inj_on_of_nodup_map report.nodup now new (same.trans id)]
          exact SameFid.refl c
        · rw [List.inj_on_of_nodup_map (ok.old_nodup last) before old (same.trans id)]
          exact SameFid.refl c
        · exact absurd (mem_ids.mpr ⟨b, now, same.trans id⟩) absent

/-- `b` is in a list before `c` is: in an earlier update, or in the old list of the same one. -/
def Earlier (reports : List (Report D)) (b c : Blob D) : Prop :=
  ∃ (k l : Nat) (r q : Report D), reports[k]? = some r ∧ reports[l]? = some q ∧
    ((k < l ∧ b ∈ r.carried ∧ c ∈ q.carried) ∨ (k = l ∧ b ∈ r.old ∧ c ∈ q.detected))

theorem State.Ok.earlier_sameFid (ok : t.Ok counter) (greedy : t.kind = .greedy) {b c : Blob D}
    (earlier : Earlier t.reports b c) (same : b.blobId = c.blobId) : SameFid c b := by
  obtain ⟨k, l, r, q, found, found', ⟨before, inside, member⟩ | ⟨rfl, old, new⟩⟩ := earlier
  · exact ok.carried_sameFid greedy (ok.settled greedy l) found' member before found inside same
  · rw [found] at found'
    cases found'
    exact (ok.report k r found).fids greedy c new b old same

end Greedy

/-- Two blobs of one track that are both fiducials or objects have the same fiducial id, and
after a blob that is neither the track never is one again. -/
theorem greedy_fiducial_stable (injective : mtdevMatch.Injective) {kinds : List Kind} {events : List (Event D)}
    {s : System D} (reached : Machine.attempt (System.step ops mtdevMatch) (.initial kinds) events = some s)
    {t : State D} (member : t ∈ s.trackers) (greedy : t.kind = .greedy) :
    (∀ r ∈ t.reports, ∀ q ∈ t.reports, ∀ b ∈ r.carried, ∀ c ∈ q.carried, b.blobId = c.blobId →
      isFid b.implements = some true → isFid c.implements = some true → b.fiducialId = c.fiducialId) ∧
    (∀ b c, Earlier t.reports b c → b.blobId = c.blobId → isFid b.implements = some false →
      isFid c.implements ≠ some true) := by
  obtain ⟨i, found⟩ := List.mem_iff_getElem?.mp member
  have ok := (System.reached_ok injective reached).tracker i t found
  constructor
  · intro r insider q insideq b carriedb c carriedc same fidb fidc
    obtain ⟨k, foundr⟩ := List.mem_iff_getElem?.mp insider
    obtain ⟨l, foundq⟩ := List.mem_iff_getElem?.mp insideq
    rcases Nat.lt_trichotomy k l with before | rfl | after
    · exact (ok.earlier_sameFid greedy ⟨k, l, r, q, foundr, foundq, Or.inl ⟨before, carriedb, carriedc⟩⟩ same
        fidc).2.symm
    · rw [foundr] at foundq
      cases foundq
      have report := ok.report k r foundr
      rcases List.mem_append.mp carriedb with oldb | newb <;> rcases List.mem_append.mp carriedc with oldc | newc
      · rw [List.inj_on_of_nodup_map (ok.old_nodup foundr) oldb oldc same]
      · exact (report.fids greedy c newc b oldb same fidc).2.symm
      · exact (report.fids greedy b newb c oldc same.symm fidb).2
      · rw [List.inj_on_of_nodup_map report.nodup newb newc same]
    · exact (ok.earlier_sameFid greedy ⟨l, k, q, r, foundq, foundr, Or.inl ⟨after, carriedc, carriedb⟩⟩ same.symm
        fidb).2
  · intro b c earlier same plain fid
    have tag := (ok.earlier_sameFid greedy earlier same fid).1
    rw [plain] at tag
    cases tag

/-- A fiducial that moves, then is only seen as a touch. -/
def fiducialRun : Option (System Int) :=
  let fiducial (x : Int) : Detection Int := { touch x 1 with implements := "pos,fiducial".toList, fiducialId := some 7 }
  Machine.attempt (System.step Doubles.integers matchNothing) (.initial [.greedy])
    [.begin 0 .default [fiducial 1], .track 0, .finish 0, .begin 0 .default [fiducial 1], .track 0, .finish 0,
      .begin 0 .default [touch 1 1], .track 0, .finish 0]

theorem greedy_fiducial_stable_run :
    ((State.first fiducialRun).reports.map fun r => r.carried.map fun b => (b.blobId, isFid b.implements)) =
        [[(1, some true)], [(1, some true), (1, some true)], [(1, some true), (1, some false)]] ∧
      ∀ b c, Earlier (State.first fiducialRun).reports b c → b.blobId = c.blobId →
        isFid b.implements = some false → isFid c.implements ≠ some true := by
  refine ⟨by decide, ?_⟩
  obtain ⟨s, reached⟩ := Option.isSome_iff_exists.mp (show fiducialRun.isSome = true by decide)
  have member := State.first_mem reached (by decide)
  exact (greedy_fiducial_stable matchNothing_injective reached member (by decide)).2

end Movid.Tracker
