import Movid.Fiducial.Links

/-!
# Merging regions

The adjacencies that both regions have are taken from the second one, but an entry that was put into the place of such a one is passed over: a
common adjacency may stay and then occurs twice in the list of the merged region, as this does in its list.
-/

namespace Movid.Fiducial

open Failing

variable {R R' S : Regions} {live : Nat → Prop} {max r1 r2 : Nat}

/-! ### The common adjacencies -/

theorem unlink_count {a b : Nat} (other : a ≠ b) {l l' : List Nat} (perm : List.Perm (R a).adjacentRegions (b :: l))
    (perm' : List.Perm (R b).adjacentRegions (a :: l')) (x c : Nat) :
    (((R.setAdjacent a l).setAdjacent b l') x).adjacentRegions.count c + (if x = a ∧ c = b ∨ x = b ∧ c = a then 1 else 0) =
      (R x).adjacentRegions.count c := by
  have head (y : Nat) (l : List Nat) : (y :: l).count c = l.count c + if c = y then 1 else 0 := by
    rw [List.count_cons]
    exact congrArg _ (if_congr (beq_iff_eq.trans eq_comm) rfl rfl)
  simp only [Regions.setAdjacent_adjacent]
  by_cases first : x = a
  · subst first
    rw [perm.count_eq, head]
    simp only [other, if_true, if_false, true_and, false_and, or_false]
  · by_cases second : x = b
    · subst second
      rw [perm'.count_eq, head]
      simp only [first, if_true, true_and, false_and, false_or]
    · simp only [first, second, if_false, false_and, or_false, Nat.add_zero]

theorem Linked.unlink (linked : Linked live max R) {a b : Nat} (other : a ≠ b) {l l' : List Nat}
    (perm : List.Perm (R a).adjacentRegions (b :: l)) (perm' : List.Perm (R b).adjacentRegions (a :: l')) :
    Linked live max ((R.setAdjacent a l).setAdjacent b l') := by
  have outline (x : Nat) : (((R.setAdjacent a l).setAdjacent b l') x).outline = (R x).outline := by simp
  have counts := unlink_count other perm perm'
  have fewer {x c : Nat} (member : c ∈ (((R.setAdjacent a l).setAdjacent b l') x).adjacentRegions) : c ∈ (R x).adjacentRegions := by
    have count := counts x c
    rw [← List.count_pos_iff] at member ⊢
    omega
  refine ⟨fun x c alive alive' => ?_, fun x c alive member => linked.inside x c alive (fewer member), fun x c alive member => ?_,
    fun x alive => ?_, fun x alive full => ?_⟩
  · have count := counts x c
    have count' := counts c x
    rw [linked.both x c alive alive', ← count'] at count
    rw [if_congr (show x = a ∧ c = b ∨ x = b ∧ c = a ↔ c = a ∧ x = b ∨ c = b ∧ x = a by tauto) rfl rfl] at count
    omega
  · rw [colour_eq (outline x), colour_eq (outline c)]
    exact linked.other x c alive (fewer member)
  · refine Nat.le_trans (List.Subperm.length_le (List.subperm_iff_count.mpr fun c => ?_)) (linked.room x alive)
    have count := counts x c
    omega
  · simp only [Regions.setAdjacent_flags] at full
    exact List.eq_nil_iff_forall_not_mem.mpr fun c member => List.not_mem_nil (linked.full x alive full ▸ fewer member)

/-- The first loop of `merge_regions` at any of its turns. -/
structure Pruned (live : Nat → Prop) (max : Nat) (R : Regions) (r1 r2 : Nat) (R' : Regions) : Prop where
  linked : Linked live max R'
  outline : ∀ x, (R' x).outline = (R x).outline
  flags : ∀ x, (R' x).flags = (R x).flags
  counts : ∀ a b, a ≠ r2 → b ≠ r2 → (R' a).adjacentRegions.count b = (R a).adjacentRegions.count b
  fewer : ∀ a b, b ∈ (R' a).adjacentRegions → b ∈ (R a).adjacentRegions
  cover : ∀ b, b ∈ (R r2).adjacentRegions → b ∈ (R' r2).adjacentRegions ∨ b ∈ (R' r1).adjacentRegions

theorem Pruned.step (apart : r1 ≠ r2) (alive : live r1) (alive' : live r2) (pruned : Pruned live max R r1 r2 R') (i : Nat) :
    ∃ R'', Regions.removeCommon r1 r2 R' i = .ok R'' ∧ Pruned live max R r1 r2 R'' := by
  have linked := pruned.linked
  unfold Regions.removeCommon
  by_cases inside : i < (R' r2).adjacentRegions.length
  · obtain ⟨a, entry⟩ : ∃ a, a = (R' r2).adjacentRegions[i] := ⟨_, rfl⟩
    have member : a ∈ (R' r2).adjacentRegions := entry ▸ List.getElem_mem inside
    have own := linked.inside r2 a alive' member
    have other : a ≠ r2 := fun same => linked.ne_self alive' (same ▸ member)
    rw [List.getElem?_eq_getElem inside, ← entry]
    show ∃ R'', (if R'.isAdjacent a r1 then _ else _) = _ ∧ _
    by_cases common : R'.isAdjacent a r1
    · have known := (linked.isAdjacent own alive).mp common
      obtain ⟨l, removed, perm⟩ := removeAdjacentFrom_ok (linked.symm alive' member)
      have perm' := dropAt_perm inside
      rw [← entry] at perm'
      have counts := unlink_count other perm perm'
      rw [if_pos common, removed]
      refine ⟨(R'.setAdjacent a l).setAdjacent r2 (Regions.dropAt (R' r2).adjacentRegions i), ?_, linked.unlink other perm perm',
        fun x => by simp [pruned.outline x], fun x => by simp [pruned.flags x], fun x c out out' => ?_, fun x c kept => ?_, fun c had => ?_⟩
      · show Except.ok ((R'.setAdjacent a l).setAdjacent r2 (Regions.dropAt ((R'.setAdjacent a l) r2).adjacentRegions i)) = _
        rw [Regions.setAdjacent_adjacent, if_neg (Ne.symm other)]
      · have count := counts x c
        simp only [out, out', and_false, false_and, or_false, if_false, Nat.add_zero] at count
        rw [count, pruned.counts x c out out']
      · have count := counts x c
        rw [← List.count_pos_iff] at kept
        exact pruned.fewer x c (List.count_pos_iff.mp (by omega))
      · have near : r1 ≠ a := fun same => linked.ne_self own (same ▸ known)
        have first : (((R'.setAdjacent a l).setAdjacent r2 (Regions.dropAt (R' r2).adjacentRegions i)) r1).adjacentRegions =
            (R' r1).adjacentRegions := by simp [near, apart]
        rw [first]
        rcases pruned.cover c had with stays | stays
        · by_cases self : c = a
          · exact .inr (self ▸ linked.symm own known)
          · have count := counts r2 c
            simp only [self, Ne.symm other, false_and, and_false, or_false, if_false, Nat.add_zero] at count
            rw [← List.count_pos_iff] at stays
            exact .inl (List.count_pos_iff.mp (by omega))
        · exact .inr stays
    · exact ⟨R', if_neg common, pruned⟩
  · rw [List.getElem?_eq_none (Nat.not_lt.mp inside)]
    exact ⟨R', rfl, pruned⟩

theorem removeCommon_ok (linked : Linked live max R) (apart : r1 ≠ r2) (alive : live r1) (alive' : live r2) (n : Nat) :
    ∃ R', (List.range n).foldlM (Regions.removeCommon r1 r2) R = .ok R' ∧ Pruned live max R r1 r2 R' :=
  foldlM_range_ok (I := fun _ => Pruned live max R r1 r2) (fun i _ _ pruned => pruned.step apart alive alive' i)
    ⟨linked, fun _ => rfl, fun _ => rfl, fun _ _ _ _ => rfl, fun _ _ member => member, fun _ member => .inl member⟩

/-! ### The other adjacencies -/

/-- The second loop of `merge_regions` after the first `i` adjacencies of `r2`. -/
structure Transferred (R : Regions) (r1 r2 i : Nat) (R' : Regions) : Prop where
  outline : ∀ x, (R' x).outline = (R x).outline
  flags : ∀ x, (R' x).flags = (R x).flags
  source : (R' r2).adjacentRegions = (R r2).adjacentRegions
  target : (R' r1).adjacentRegions = (R r1).adjacentRegions ++ (R r2).adjacentRegions.take i
  counts : ∀ a b, a ≠ r1 → a ≠ r2 →
    (R' a).adjacentRegions.count b + (if b = r2 then ((R r2).adjacentRegions.take i).count a else 0) =
      (R a).adjacentRegions.count b + if b = r1 then ((R r2).adjacentRegions.take i).count a else 0
  length : ∀ a, a ≠ r1 → (R' a).adjacentRegions.length = (R a).adjacentRegions.length

theorem Transferred.step (linked : Linked live max R) (apart : r1 ≠ r2) (alive' : live r2) (same : (R r1).colour = (R r2).colour)
    (room : (R r1).adjacentRegions.length + (R r2).adjacentRegions.length ≤ max) {i : Nat}
    (inside : i < (R r2).adjacentRegions.length) (moved : Transferred R r1 r2 i R') :
    ∃ R'', Regions.transfer max r1 r2 R' i = .ok R'' ∧ Transferred R r1 r2 (i + 1) R'' := by
  have taken : (R r2).adjacentRegions.take (i + 1) = (R r2).adjacentRegions.take i ++ [(R r2).adjacentRegions[i]] :=
    List.take_append_getElem inside |>.symm
  obtain ⟨a, entry⟩ : ∃ a, a = (R r2).adjacentRegions[i] := ⟨_, rfl⟩
  rw [← entry] at taken
  have member : a ∈ (R r2).adjacentRegions := entry ▸ List.getElem_mem inside
  have own := linked.inside r2 a alive' member
  have differ := linked.other r2 a alive' member
  have other : a ≠ r2 := fun eq => differ (eq ▸ rfl)
  have other' : a ≠ r1 := fun eq => differ (eq ▸ same.symm)
  have back : r2 ∈ (R' a).adjacentRegions := by
    have counts := moved.counts a r2 other' other
    have all := List.take_sublist (i + 1) (R r2).adjacentRegions |>.count_le a
    rw [taken, List.count_append, List.count_singleton_self] at all
    rw [if_pos rfl, if_neg (Ne.symm apart), linked.both a r2 own alive'] at counts
    exact List.count_pos_iff.mp (by omega)
  obtain ⟨l, l', replaced, perm, perm'⟩ := replaceAdjacent_ok r1 back
  have size : l'.length = (R' a).adjacentRegions.length := by rw [perm'.length_eq, perm.length_eq, List.length_cons, List.length_cons]
  have lists (x : Nat) : (((R'.setAdjacent a l').setAdjacent r1 ((R' r1).adjacentRegions ++ [a])) x).adjacentRegions =
      if x = r1 then (R' r1).adjacentRegions ++ [a] else if x = a then l' else (R' x).adjacentRegions := by
    simp only [Regions.setAdjacent_adjacent]
  refine ⟨(R'.setAdjacent a l').setAdjacent r1 ((R' r1).adjacentRegions ++ [a]), ?_, fun x => by simp [moved.outline x],
    fun x => by simp [moved.flags x], ?_, ?_, fun x b first second => ?_, fun x first => ?_⟩
  · unfold Regions.transfer
    rw [moved.source, List.getElem?_eq_getElem inside, ← entry]
    show (R'.replaceAdjacent a r2 r1).bind _ = _
    rw [replaced]
    have plain : ((R'.setAdjacent a l') r1).adjacentRegions = (R' r1).adjacentRegions := by simp [Ne.symm other']
    have short : (((R'.setAdjacent a l').setAdjacent r1 ((R' r1).adjacentRegions ++ [a])) a).adjacentRegions.length ≤ max := by
      rw [lists, if_neg other', if_pos rfl, size, moved.length a other']
      exact linked.room a own
    have short' : (((R'.setAdjacent a l').setAdjacent r1 ((R' r1).adjacentRegions ++ [a])) r1).adjacentRegions.length ≤ max := by
      rw [lists, if_pos rfl, moved.target, List.length_append, List.length_append, List.length_take, List.length_singleton]
      omega
    rw [← plain] at short short' ⊢
    exact if_pos ⟨short, short'⟩
  · rw [lists, if_neg (Ne.symm apart), if_neg (Ne.symm other), moved.source]
  · rw [lists, if_pos rfl, moved.target, taken, List.append_assoc]
  · have counts := moved.counts x b first second
    have head (y : Nat) (l : List Nat) : (y :: l).count b = l.count b + if b = y then 1 else 0 := by
      rw [List.count_cons]
      exact congrArg _ (if_congr (beq_iff_eq.trans eq_comm) rfl rfl)
    have single : [a].count x = if x = a then 1 else 0 := by
      rw [List.count_singleton]
      exact if_congr (beq_iff_eq.trans eq_comm) rfl rfl
    rw [lists, if_neg first, taken, List.count_append, single]
    by_cases self : x = a
    · have before := perm.count_eq b
      have after := perm'.count_eq b
      rw [head] at before after
      simp only [self, if_true] at counts ⊢
      split at counts <;> split at counts <;> simp_all <;> omega
    · simp only [self, if_false, Nat.add_zero]
      exact counts
  · rw [lists, if_neg first]
    split
    · rename_i self
      rw [size, self, moved.length a other']
    · exact moved.length x first

/-- The adjacencies of `r2` have gone to `r1`. -/
structure Moved (live : Nat → Prop) (R : Regions) (r1 r2 : Nat) (R' : Regions) : Prop where
  outline : ∀ x, (R' x).outline = (R x).outline
  flags : ∀ x, (R' x).flags = (R x).flags
  counts : ∀ a b, live a → (R' a).adjacentRegions.count b = if a = r2 ∨ b = r2 then 0 else
    (R a).adjacentRegions.count b + (if a = r1 then (R r2).adjacentRegions.count b else 0) +
      if b = r1 then (R a).adjacentRegions.count r2 else 0
  length : ∀ a, a ≠ r1 → (R' a).adjacentRegions.length ≤ (R a).adjacentRegions.length
  target : (R' r1).adjacentRegions.length = (R r1).adjacentRegions.length + (R r2).adjacentRegions.length

theorem transfer_ok (linked : Linked live max R) (apart : r1 ≠ r2) (alive : live r1) (alive' : live r2)
    (same : (R r1).colour = (R r2).colour) (room : (R r1).adjacentRegions.length + (R r2).adjacentRegions.length ≤ max) :
    ∃ R', (((List.range (R r2).adjacentRegions.length).foldlM (Regions.transfer max r1 r2) R).map fun R => R.setAdjacent r2 []) = .ok R' ∧
      Moved live R r1 r2 R' := by
  have absent {a b : Nat} (own : live a) (equal : (R a).colour = (R b).colour) : (R a).adjacentRegions.count b = 0 :=
    List.count_eq_zero.mpr fun member => linked.other a b own member equal
  obtain ⟨R', loop, moved⟩ := foldlM_range_ok
    (fun i _ inside moved => Transferred.step linked apart alive' same room inside moved)
    ⟨fun _ => rfl, fun _ => rfl, rfl, by simp, fun _ _ _ _ => by simp, fun _ _ => rfl⟩
  refine ⟨R'.setAdjacent r2 [], by rw [loop]; rfl, fun x => by simp [moved.outline x], fun x => by simp [moved.flags x], fun a b own => ?_,
    fun a first => ?_, ?_⟩
  · rw [Regions.setAdjacent_adjacent]
    by_cases second : a = r2
    · simp [second]
    · by_cases first : a = r1
      · subst first
        rw [if_neg second, moved.target, List.take_length, List.count_append, absent alive same]
        by_cases third : b = r2
        · subst third
          simp [absent alive same, absent alive' rfl]
        · simp [second, third]
      · have counts := moved.counts a b first second
        rw [List.take_length, linked.both r2 a alive' own] at counts
        simp only [second, first, false_or, if_false, Nat.add_zero]
        by_cases third : b = r2
        · subst third
          simp only [if_true, Ne.symm apart, if_false] at counts ⊢
          omega
        · simp only [third, if_false, Nat.add_zero] at counts ⊢
          exact counts
  · rw [Regions.setAdjacent_adjacent]
    split
    · exact Nat.zero_le _
    · exact Nat.le_of_eq (moved.length a first)
  · rw [Regions.setAdjacent_adjacent, if_neg apart, moved.target, List.take_length, List.length_append]

theorem Moved.mem (moved : Moved live R r1 r2 R') {a b : Nat} (own : live a) : b ∈ (R' a).adjacentRegions ↔
    a ≠ r2 ∧ b ≠ r2 ∧ (b ∈ (R a).adjacentRegions ∨ a = r1 ∧ b ∈ (R r2).adjacentRegions ∨ b = r1 ∧ r2 ∈ (R a).adjacentRegions) := by
  have counts := moved.counts a b own
  simp only [← List.count_pos_iff, counts]
  split
  · simp only [Nat.lt_irrefl, false_iff]
    tauto
  · split <;> split <;> simp_all [Nat.add_pos_iff_pos_or_pos, or_assoc]

theorem Moved.linked (moved : Moved live R r1 r2 R') (linked : Linked live max R) (alive : live r1) (alive' : live r2)
    (same : (R r1).colour = (R r2).colour) (free : (R r1).flags.saturated ≠ true)
    (room : (R r1).adjacentRegions.length + (R r2).adjacentRegions.length ≤ max) : Linked live max R' := by
  refine ⟨fun a b own own' => ?_, fun a b own member => ?_, fun a b own member => ?_, fun a own => ?_, fun a own full => ?_⟩
  · rw [moved.counts a b own, moved.counts b a own', if_congr (Or.comm : a = r2 ∨ b = r2 ↔ _) rfl rfl, linked.both a b own own',
      linked.both r2 b alive' own', linked.both r2 a alive' own, Nat.add_right_comm]
  · obtain ⟨_, _, member⟩ := (moved.mem own).mp member
    rcases member with member | ⟨_, member⟩ | ⟨rfl, _⟩
    · exact linked.inside a b own member
    · exact linked.inside r2 b alive' member
    · exact alive
  · rw [colour_eq (moved.outline a), colour_eq (moved.outline b)]
    obtain ⟨_, _, member⟩ := (moved.mem own).mp member
    rcases member with member | ⟨rfl, member⟩ | ⟨rfl, member⟩
    · exact linked.other a b own member
    · rw [same]
      exact linked.other r2 b alive' member
    · rw [same]
      exact linked.other a r2 own member
  · by_cases first : a = r1
    · rw [first, moved.target]
      exact room
    · exact Nat.le_trans (moved.length a first) (linked.room a own)
  · rw [moved.flags] at full
    have first : a ≠ r1 := fun eq => free (eq ▸ full)
    have short := moved.length a first
    rw [linked.full a own full, List.length_nil] at short
    exact List.length_eq_zero_iff.mp (Nat.le_zero.mp short)

/-! ### All cases -/

/-- What `merge_regions` has made of the lists before the flags and bounds are added. -/
structure Merging (live : Nat → Prop) (max : Nat) (R : Regions) (r1 r2 : Nat) (R' : Regions) : Prop where
  linked : Linked live max R'
  outline : ∀ x, (R' x).outline = (R x).outline
  gone : (R' r2).adjacentRegions = []
  agree : (R' r2).flags.saturated = true → (R' r1).flags.saturated = true
  links : ∀ a b, live a → b ∈ (R' a).adjacentRegions →
    b ∈ (R a).adjacentRegions ∨ a = r1 ∧ b ∈ (R r2).adjacentRegions ∨ b = r1 ∧ r2 ∈ (R a).adjacentRegions
  ties : ∀ a b, live a → live b → a ≠ r2 → b ≠ r2 → Tied R a b → Tied R' a b
  passed : ∀ b, b ∈ (R r2).adjacentRegions → Tied R' r1 b
  saturated : ∀ x, (R x).flags.saturated = true → (R' x).flags.saturated = true
  fragmented : ∀ x, (R x).flags.fragmented = true → (R' x).flags.fragmented = true

/-- The second one of two that are not adjacent still has its list when the first has been saturated. -/
theorem saturateBoth_ok (linked : Linked live max R) {a b : Nat} (apart : a ≠ b) (own : live a) (own' : live b)
    (same : (R a).colour = (R b).colour) :
    ∃ R', ((R.makeSaturated a).bind fun R => R.makeSaturated b) = .ok R' ∧ Kept live max (fun _ _ => False) R R' ∧
      (R' a).flags.saturated = true ∧ (R' b).flags.saturated = true ∧
      ∀ x, x ∈ (R a).adjacentRegions ∨ x ∈ (R b).adjacentRegions → (R' x).flags.fragmented = true := by
  obtain ⟨S, first, saturated⟩ := makeSaturated_ok linked own
  have kept := saturated.kept (fun _ _ => False) linked own
  obtain ⟨R', second, saturated'⟩ := makeSaturated_ok kept.linked own'
  have kept' := saturated'.kept (fun _ _ => False) kept.linked own'
  refine ⟨R', by rw [first]; exact second, kept.trans kept', (saturated'.saturated a).mpr (.inr ((saturated.saturated a).mpr (.inl rfl))),
    (saturated'.saturated b).mpr (.inl rfl), fun x listed => ?_⟩
  rcases listed with listed | listed
  · exact (saturated'.fragmented x).mpr (.inr ((saturated.fragmented x).mpr (.inl listed)))
  · have third : x ≠ a := fun eq => linked.other b x own' listed (eq ▸ same.symm)
    exact (saturated'.fragmented x).mpr (.inl ((saturated.mem own').mpr ⟨listed, Ne.symm apart, third⟩))

theorem Kept.merging (kept : Kept live max (fun _ _ => False) R R') (alive' : live r2) (first : (R' r1).flags.saturated = true)
    (second : (R' r2).flags.saturated = true) (lost : ∀ x, x ∈ (R r2).adjacentRegions → (R' x).flags.fragmented = true) :
    Merging live max R r1 r2 R' where
  linked := kept.linked
  outline := kept.outline
  gone := kept.linked.full r2 alive' second
  agree _ := first
  links a b own member := .inl ((kept.links a b own member).resolve_right id)
  ties a b own own' _ _ tied := kept.ties a b own own' tied
  passed b member := .inr (.inl ⟨first, lost b member⟩)
  saturated := kept.saturated
  fragmented := kept.fragmented

theorem mergeAdjacent_ok (linked : Linked live max R) (apart : r1 ≠ r2) (alive : live r1) (alive' : live r2)
    (same : (R r1).colour = (R r2).colour) : ∃ R', R.mergeAdjacent max r1 r2 = .ok R' ∧ Merging live max R r1 r2 R' := by
  unfold Regions.mergeAdjacent
  by_cases full : (R r1).flags.saturated = true
  · rw [if_pos full]
    obtain ⟨R', done, kept, second, first, lost⟩ := saturateBoth_ok linked (Ne.symm apart) alive' alive same.symm
    obtain ⟨S, done1, done2⟩ := bind_ok done
    have flagged : (S r2).flags.saturated = true := by
      obtain ⟨S', again, saturated⟩ := makeSaturated_ok linked alive'
      cases done1.symm.trans again
      exact (saturated.saturated r2).mpr (.inl rfl)
    refine ⟨R', ?_, kept.merging alive' first second fun x member => lost x (.inl member)⟩
    rw [done1]
    exact (if_pos flagged).trans done2
  · rw [if_neg full]
    by_cases full' : (R r2).flags.saturated = true
    · rw [if_pos full']
      obtain ⟨R', done, saturated⟩ := makeSaturated_ok linked alive
      have kept := saturated.kept (fun _ _ => False) linked alive
      refine ⟨R', done, kept.merging alive' ((saturated.saturated r1).mpr (.inl rfl)) (kept.saturated r2 full') fun x member => ?_⟩
      rw [linked.full r2 alive' full'] at member
      exact absurd member List.not_mem_nil
    · rw [if_neg full']
      obtain ⟨S, pruning, pruned⟩ := removeCommon_ok linked apart alive alive' (R r2).adjacentRegions.length
      rw [pruning]
      have same' : (S r1).colour = (S r2).colour := by rwa [colour_eq (pruned.outline r1), colour_eq (pruned.outline r2)]
      have stays {a b : Nat} (first : a ≠ r2) (second : b ≠ r2) (tied : Tied R a b) : Tied S a b := by
        have counts := pruned.counts a b first second
        unfold Tied at tied ⊢
        rwa [pruned.flags, pruned.flags, ← List.count_pos_iff, counts, List.count_pos_iff]
      simp only [Except.bind]
      by_cases many : max < (S r1).adjacentRegions.length + (S r2).adjacentRegions.length
      · rw [if_pos many]
        obtain ⟨R', done, kept, first, second, lost⟩ := saturateBoth_ok pruned.linked apart alive alive' same'
        exact ⟨R', done, kept.linked, fun x => (kept.outline x).trans (pruned.outline x), kept.linked.full r2 alive' second, fun _ => first,
          fun a b own member => .inl (pruned.fewer a b ((kept.links a b own member).resolve_right id)),
          fun a b own own' out out' tied => kept.ties a b own own' (stays out out' tied),
          fun b member => .inr (.inl ⟨first, lost b (pruned.cover b member).symm⟩),
          fun x flag => kept.saturated x (by rwa [pruned.flags]), fun x flag => kept.fragmented x (by rwa [pruned.flags])⟩
      · rw [if_neg many]
        obtain ⟨R', done, moved⟩ := transfer_ok pruned.linked apart alive alive' same' (Nat.not_lt.mp many)
        have free : (S r1).flags.saturated ≠ true := by rwa [pruned.flags]
        have flags (x : Nat) : (R' x).flags = (R x).flags := (moved.flags x).trans (pruned.flags x)
        refine ⟨R', done, moved.linked pruned.linked alive alive' same' free (Nat.not_lt.mp many),
          fun x => (moved.outline x).trans (pruned.outline x), ?_, fun flag => absurd (flags r2 ▸ flag) full', fun a b own member => ?_,
          fun a b own _ out out' tied => ?_, fun b member => .inl ((moved.mem alive).mpr ?_), fun x flag => by rwa [flags],
          fun x flag => by rwa [flags]⟩
        · exact List.eq_nil_iff_forall_not_mem.mpr fun b member => ((moved.mem alive').mp member).1 rfl
        · obtain ⟨_, _, member⟩ := (moved.mem own).mp member
          exact member.imp (pruned.fewer a b) (Or.imp (And.imp_right (pruned.fewer r2 b)) (And.imp_right (pruned.fewer a r2)))
        · rcases stays out out' tied with member | flagged
          · exact .inl ((moved.mem own).mpr ⟨out, out', .inl member⟩)
          · rw [← moved.flags, ← moved.flags] at flagged
            exact .inr flagged
        · have third : b ≠ r2 := fun eq => linked.ne_self alive' (eq ▸ member)
          exact ⟨apart, third, (pruned.cover b member).elim (fun stays => .inr (.inl ⟨rfl, stays⟩)) .inl⟩

/-- What `merge_regions` makes of the regions when `r2` is given up. -/
structure Merged (live : Nat → Prop) (max : Nat) (R : Regions) (r1 r2 : Nat) (R' : Regions) : Prop where
  linked : Linked (fun r => live r ∧ r ≠ r2) max R'
  outline : ∀ x, (R' x).outline = (R.absorb r1 r2 x).outline
  links : ∀ a b, live a → b ∈ (R' a).adjacentRegions →
    b ∈ (R a).adjacentRegions ∨ a = r1 ∧ b ∈ (R r2).adjacentRegions ∨ b = r1 ∧ r2 ∈ (R a).adjacentRegions
  ties : ∀ a b, live a → live b → Tied R a b → Tied R' (if a = r2 then r1 else a) (if b = r2 then r1 else b)

theorem absorb_adjacent (x : Nat) : (R.absorb r1 r2 x).adjacentRegions = (R x).adjacentRegions := by
  unfold Regions.absorb
  by_cases self : x = r1
  · rw [self, Function.update_self]
  · rw [Function.update_of_ne self]

theorem absorb_saturated (x : Nat) :
    (R.absorb r1 r2 x).flags.saturated = true ↔ (R x).flags.saturated = true ∨ x = r1 ∧ (R r2).flags.saturated = true := by
  unfold Regions.absorb
  by_cases self : x = r1
  · simp [self, Flags.or]
  · rw [Function.update_of_ne self]
    simp [self]

theorem absorb_fragmented (x : Nat) :
    (R.absorb r1 r2 x).flags.fragmented = true ↔ (R x).flags.fragmented = true ∨ x = r1 ∧ (R r2).flags.fragmented = true := by
  unfold Regions.absorb
  by_cases self : x = r1
  · simp [self, Flags.or]
  · rw [Function.update_of_ne self]
    simp [self]

theorem absorb_colour (x : Nat) : (R.absorb r1 r2 x).colour = (R x).colour := by
  unfold Regions.absorb
  by_cases self : x = r1
  · rw [self, Function.update_self]
  · rw [Function.update_of_ne self]

theorem absorb_outline (same : ∀ x, (R' x).outline = (R x).outline) (x : Nat) :
    (R'.absorb r1 r2 x).outline = (R.absorb r1 r2 x).outline := by
  unfold Regions.absorb
  by_cases self : x = r1
  · rw [self, Function.update_self, Function.update_self]
    have first := same r1
    have second := same r2
    unfold Region.outline at first second ⊢
    simp only [Region.mk.injEq, Flags.mk.injEq, Flags.or] at first second ⊢
    simp [first, second]
  · rw [Function.update_of_ne self, Function.update_of_ne self]
    exact same x

theorem Tied.symm (linked : Linked live max R) {a b : Nat} (own : live a) (tied : Tied R a b) : Tied R b a :=
  tied.elim (fun member => .inl (linked.symm own member)) fun flagged => .inr flagged.symm

theorem Merging.merged (merging : Merging live max R r1 r2 S) (linked : Linked live max R) (apart : r1 ≠ r2) (alive : live r1)
    (alive' : live r2) (same : (R r1).colour = (R r2).colour) : Merged live max R r1 r2 (S.absorb r1 r2) := by
  have adjacent (x : Nat) : (S.absorb r1 r2 x).adjacentRegions = (S x).adjacentRegions := absorb_adjacent x
  have more {a b : Nat} (tied : Tied S a b) : Tied (S.absorb r1 r2) a b := by
    unfold Tied at tied ⊢
    simp only [adjacent, absorb_saturated, absorb_fragmented]
    tauto
  have into (x : Nat) : (R x).flags.saturated = true → (S.absorb r1 r2 (if x = r2 then r1 else x)).flags.saturated = true := by
    intro flag
    rw [absorb_saturated]
    split
    · rename_i self
      exact .inr ⟨rfl, merging.saturated r2 (self ▸ flag)⟩
    · exact .inl (merging.saturated x flag)
  have into' (x : Nat) : (R x).flags.fragmented = true → (S.absorb r1 r2 (if x = r2 then r1 else x)).flags.fragmented = true := by
    intro flag
    rw [absorb_fragmented]
    split
    · rename_i self
      exact .inr ⟨rfl, merging.fragmented r2 (self ▸ flag)⟩
    · exact .inl (merging.fragmented x flag)
  refine ⟨⟨fun a b own own' => ?_, fun a b own member => ?_, fun a b own member => ?_, fun a own => ?_, fun a own full => ?_⟩,
    absorb_outline merging.outline, fun a b own member => ?_, fun a b own own' tied => ?_⟩
  · rw [adjacent, adjacent]
    exact merging.linked.both a b own.1 own'.1
  · rw [adjacent] at member
    refine ⟨merging.linked.inside a b own.1 member, fun eq => ?_⟩
    have back := merging.linked.symm own.1 member
    rw [eq, merging.gone] at back
    exact List.not_mem_nil back
  · rw [adjacent] at member
    rw [absorb_colour, absorb_colour]
    exact merging.linked.other a b own.1 member
  · rw [adjacent]
    exact merging.linked.room a own.1
  · rw [adjacent]
    rcases (absorb_saturated a).mp full with first | ⟨self, second⟩
    · exact merging.linked.full a own.1 first
    · exact merging.linked.full a own.1 (self ▸ merging.agree second)
  · rw [adjacent] at member
    exact merging.links a b own member
  · rcases tied with member | ⟨full, lost⟩ | ⟨full, lost⟩
    · by_cases first : a = r2
      · subst first
        have second : b ≠ a := fun eq => linked.ne_self alive' (eq ▸ member)
        rw [if_pos rfl, if_neg second]
        exact more (merging.passed b member)
      · by_cases second : b = r2
        · subst second
          rw [if_neg first, if_pos rfl]
          exact more ((merging.passed a (linked.symm own member)).symm merging.linked alive)
        · rw [if_neg first, if_neg second]
          exact more (merging.ties a b own own' first second (.inl member))
    · exact .inr (.inl ⟨into a full, into' b lost⟩)
    · exact .inr (.inr ⟨into b full, into' a lost⟩)

/-- Two regions of the same colour are merged without an assertion that fails. -/
theorem mergeRegions_ok (linked : Linked live max R) (apart : r1 ≠ r2) (alive : live r1) (alive' : live r2)
    (same : (R r1).colour = (R r2).colour) : ∃ R', R.mergeRegions max r1 r2 = .ok R' ∧ Merged live max R r1 r2 R' := by
  obtain ⟨S, done, merging⟩ := mergeAdjacent_ok linked apart alive alive' same
  have fine : ¬ (r1 = r2 ∨ R.contains r1 r2 ∨ R.contains r2 r1) := by
    rintro (eq | member | member)
    · exact apart eq
    · exact linked.other r1 r2 alive member same
    · exact linked.other r2 r1 alive' member same.symm
  refine ⟨S.absorb r1 r2, ?_, merging.merged linked apart alive alive' same⟩
  unfold Regions.mergeRegions
  rw [if_neg fine, done]
  rfl

end Movid.Fiducial
