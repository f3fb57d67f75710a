import Mathlib.Data.List.Perm.Subperm
import Movid.Fiducial.Region
import Movid.Lib.Failing

/-!
# Adjacency lists

Regions list each other equally often, whatever is done to their lists.
-/

namespace Movid.Fiducial

open Failing

variable {R R' : Regions} {live : Nat → Prop} {max : Nat}

/-- All of a region but its adjacencies and the flags that say that some are missing. -/
def Region.outline (r : Region) : Region :=
  { r with adjacentRegions := [], flags := { r.flags with saturated := false, fragmented := false } }

namespace Regions

/-- What a region keeps is the same for all regions. -/
theorem update_field {α : Type} (f : Region → α) {r : Nat} {region : Region} (same : f region = f (R r)) (x : Nat) :
    f (Function.update R r region x) = f (R x) := by
  by_cases self : x = r
  · rw [self, Function.update_self, same]
  · rw [Function.update_of_ne self]

@[simp] theorem setAdjacent_adjacent (r x : Nat) (l : List Nat) :
    (R.setAdjacent r l x).adjacentRegions = if x = r then l else (R x).adjacentRegions := by
  unfold setAdjacent
  by_cases self : x = r
  · rw [self, Function.update_self, if_pos rfl]
  · rw [Function.update_of_ne self, if_neg self]

@[simp] theorem setAdjacent_flags (r x : Nat) (l : List Nat) : (R.setAdjacent r l x).flags = (R x).flags :=
  update_field Region.flags (by rfl) x

@[simp] theorem setAdjacent_outline (r x : Nat) (l : List Nat) : (R.setAdjacent r l x).outline = (R x).outline :=
  update_field Region.outline (by rfl) x

@[simp] theorem fragment_adjacent (r x : Nat) : (R.fragment r x).adjacentRegions = (R x).adjacentRegions :=
  update_field Region.adjacentRegions (by rfl) x

@[simp] theorem fragment_saturated (r x : Nat) : (R.fragment r x).flags.saturated = (R x).flags.saturated :=
  update_field (fun region => region.flags.saturated) (by rfl) x

@[simp] theorem fragment_fragmented (r x : Nat) : (R.fragment r x).flags.fragmented = true ↔ x = r ∨ (R x).flags.fragmented = true := by
  unfold fragment setFlags
  by_cases self : x = r
  · simp [self]
  · rw [Function.update_of_ne self]
    simp [self]

@[simp] theorem fragment_outline (r x : Nat) : (R.fragment r x).outline = (R x).outline :=
  update_field Region.outline (by rfl) x

@[simp] theorem saturate_adjacent (r x : Nat) : (R.saturate r x).adjacentRegions = (R x).adjacentRegions :=
  update_field Region.adjacentRegions (by rfl) x

@[simp] theorem saturate_saturated (r x : Nat) : (R.saturate r x).flags.saturated = true ↔ x = r ∨ (R x).flags.saturated = true := by
  unfold saturate setFlags
  by_cases self : x = r
  · simp [self]
  · rw [Function.update_of_ne self]
    simp [self]

@[simp] theorem saturate_fragmented (r x : Nat) : (R.saturate r x).flags.fragmented = (R x).flags.fragmented :=
  update_field (fun region => region.flags.fragmented) (by rfl) x

@[simp] theorem saturate_outline (r x : Nat) : (R.saturate r x).outline = (R x).outline :=
  update_field Region.outline (by rfl) x

end Regions

/-! ### Lists -/

theorem dropAt_perm {l : List Nat} {i : Nat} (inside : i < l.length) : List.Perm l (l[i] :: Regions.dropAt l i) := by
  obtain ⟨front, last, rfl⟩ : ∃ front last, l = front ++ [last] :=
    ⟨l.dropLast, l.getLast (List.ne_nil_of_length_pos (by omega)), (List.dropLast_append_getLast _).symm⟩
  unfold Regions.dropAt
  rw [List.getLast?_append, List.getLast?_singleton]
  show List.Perm _ (_ :: ((front ++ [last]).set i last).dropLast)
  by_cases before : i < front.length
  · rw [List.set_append_left _ _ before, List.dropLast_concat, List.getElem_append_left before]
    have moved := (List.set_perm_cons_eraseIdx before last).symm
    have whole := (List.getElem_cons_eraseIdx_perm before).symm
    calc List.Perm (front ++ [last]) (last :: front) := List.perm_append_singleton last front
      List.Perm _ (last :: front[i] :: front.eraseIdx i) := whole.cons last
      List.Perm _ (front[i] :: last :: front.eraseIdx i) := List.Perm.swap _ _ _
      List.Perm _ (front[i] :: front.set i last) := moved.cons _
  · have ends : i = front.length := by
      rw [List.length_append, List.length_singleton] at inside
      omega
    subst ends
    simp

theorem getElem_idxOf_self {l : List Nat} {x : Nat} (member : x ∈ l) : ∃ inside : l.idxOf x < l.length, l[l.idxOf x] = x :=
  ⟨List.idxOf_lt_length_iff.mpr member, List.getElem_idxOf _⟩

theorem removeAdjacentFrom_ok {r1 r2 : Nat} (member : r2 ∈ (R r1).adjacentRegions) :
    ∃ l, R.removeAdjacentFrom r1 r2 = .ok (R.setAdjacent r1 l) ∧ List.Perm (R r1).adjacentRegions (r2 :: l) := by
  obtain ⟨inside, entry⟩ := getElem_idxOf_self member
  have perm := dropAt_perm inside
  rw [entry] at perm
  exact ⟨_, if_pos member, perm⟩

theorem replaceAdjacent_ok {r1 r2 : Nat} (r3 : Nat) (member : r2 ∈ (R r1).adjacentRegions) :
    ∃ l l', R.replaceAdjacent r1 r2 r3 = .ok (R.setAdjacent r1 l') ∧ List.Perm (R r1).adjacentRegions (r2 :: l) ∧ List.Perm l' (r3 :: l) := by
  obtain ⟨inside, entry⟩ := getElem_idxOf_self member
  have perm := (List.getElem_cons_eraseIdx_perm inside).symm
  rw [entry] at perm
  exact ⟨_, _, if_pos member, perm, List.set_perm_cons_eraseIdx inside r3⟩

/-! ### The invariant -/

/-- Among the live regions, adjacent ones differ in colour and list each other equally often. -/
structure Linked (live : Nat → Prop) (max : Nat) (R : Regions) : Prop where
  both : ∀ a b, live a → live b → (R a).adjacentRegions.count b = (R b).adjacentRegions.count a
  inside : ∀ a b, live a → b ∈ (R a).adjacentRegions → live b
  other : ∀ a b, live a → b ∈ (R a).adjacentRegions → (R a).colour ≠ (R b).colour
  room : ∀ a, live a → (R a).adjacentRegions.length ≤ max
  full : ∀ a, live a → (R a).flags.saturated = true → (R a).adjacentRegions = []

theorem Linked.symm (linked : Linked live max R) {a b : Nat} (alive : live a) (member : b ∈ (R a).adjacentRegions) :
    a ∈ (R b).adjacentRegions := by
  have count := linked.both a b alive (linked.inside a b alive member)
  rw [← List.count_pos_iff] at member ⊢
  omega

theorem Linked.isAdjacent (linked : Linked live max R) {a b : Nat} (alive : live a) (alive' : live b) :
    R.isAdjacent a b ↔ b ∈ (R a).adjacentRegions := by
  unfold Regions.isAdjacent Regions.contains
  split
  · exact ⟨linked.symm alive', linked.symm alive⟩
  · rfl

theorem Linked.ne_self (linked : Linked live max R) {a : Nat} (alive : live a) : a ∉ (R a).adjacentRegions :=
  fun member => linked.other a a alive member rfl

theorem colour_eq {x : Nat} (same : (R' x).outline = (R x).outline) : (R' x).colour = (R x).colour := by
  show (R' x).outline.colour = (R x).outline.colour
  rw [same]

/-! ### Saturation -/

/-- What `make_saturated` makes of the regions. -/
structure Saturated (live : Nat → Prop) (R : Regions) (r : Nat) (R' : Regions) : Prop where
  outline : ∀ x, (R' x).outline = (R x).outline
  counts : ∀ a b, live a → (R' a).adjacentRegions.count b = if a = r ∨ b = r then 0 else (R a).adjacentRegions.count b
  saturated : ∀ a, (R' a).flags.saturated = true ↔ a = r ∨ (R a).flags.saturated = true
  fragmented : ∀ a, (R' a).flags.fragmented = true ↔ a ∈ (R r).adjacentRegions ∨ (R a).flags.fragmented = true

/-- The loop after the first `i` adjacencies. -/
structure Detached (R : Regions) (r i : Nat) (R' : Regions) : Prop where
  outline : ∀ x, (R' x).outline = (R x).outline
  own : (R' r).adjacentRegions = (R r).adjacentRegions
  counts : ∀ a b, (R' a).adjacentRegions.count b + (if b = r then ((R r).adjacentRegions.take i).count a else 0) =
    (R a).adjacentRegions.count b
  saturated : ∀ a, (R' a).flags.saturated = (R a).flags.saturated
  fragmented : ∀ a, (R' a).flags.fragmented = true ↔ a ∈ (R r).adjacentRegions.take i ∨ (R a).flags.fragmented = true

theorem Detached.step (linked : Linked live max R) {r i : Nat} (alive : live r) (inside : i < (R r).adjacentRegions.length)
    (detached : Detached R r i R') : ∃ R'', Regions.detach r R' i = .ok R'' ∧ Detached R r (i + 1) R'' := by
  have taken : (R r).adjacentRegions.take (i + 1) = (R r).adjacentRegions.take i ++ [(R r).adjacentRegions[i]] :=
    List.take_append_getElem inside |>.symm
  obtain ⟨a, entry⟩ : ∃ a, a = (R r).adjacentRegions[i] := ⟨_, rfl⟩
  have member : a ∈ (R r).adjacentRegions := entry ▸ List.getElem_mem inside
  have other : a ≠ r := fun same => linked.ne_self alive (same ▸ member)
  have more : ((R r).adjacentRegions.take i).count a < (R r).adjacentRegions.count a := by
    have all := List.take_sublist (i + 1) (R r).adjacentRegions |>.count_le a
    rw [taken, ← entry, List.count_append, List.count_singleton_self] at all
    omega
  have back : r ∈ (R' a).adjacentRegions := by
    have counts := detached.counts a r
    rw [if_pos rfl, linked.both a r (linked.inside r a alive member) alive] at counts
    exact List.count_pos_iff.mp (by omega)
  obtain ⟨l, removed, perm⟩ := removeAdjacentFrom_ok back
  refine ⟨(R'.setAdjacent a l).fragment a, ?_, fun x => by simp [detached.outline x], ?_, fun x b => ?_, fun x => ?_, fun x => ?_⟩
  · unfold Regions.detach
    rw [detached.own, List.getElem?_eq_getElem inside, ← entry]
    show (R'.removeAdjacentFrom a r).map _ = _
    rw [removed]
    rfl
  · simp [Ne.symm other, detached.own]
  · have counts := detached.counts x b
    have own := perm.count_eq b
    rw [taken, ← entry, List.count_append, List.count_singleton]
    rw [List.count_cons] at own
    simp only [Regions.fragment_adjacent, Regions.setAdjacent_adjacent]
    by_cases self : x = a
    · subst self
      by_cases target : b = r
      · subst target
        simp only [if_true, beq_self_eq_true] at counts own ⊢
        omega
      · have differ : (r == b) = false := beq_false_of_ne (Ne.symm target)
        simp only [target, if_true, if_false, differ, Bool.false_eq_true] at counts own ⊢
        omega
    · have differ : (a == x) = false := beq_false_of_ne (Ne.symm self)
      simp only [self, if_false, differ, Bool.false_eq_true] at counts ⊢
      exact counts
  · simp [detached.saturated x]
  · rw [taken, ← entry, Regions.fragment_fragmented, Regions.setAdjacent_flags, detached.fragmented, List.mem_append, List.mem_singleton]
    tauto

theorem makeSaturated_ok (linked : Linked live max R) {r : Nat} (alive : live r) :
    ∃ R', R.makeSaturated r = .ok R' ∧ Saturated live R r R' := by
  have start : Detached R r 0 R := ⟨fun _ => rfl, rfl, fun a b => by simp, fun _ => rfl, fun a => by simp⟩
  obtain ⟨R', loop, detached⟩ := foldlM_range_ok (fun i R' inside detached => Detached.step linked alive inside detached) start
  refine ⟨(R'.setAdjacent r []).saturate r, ?_, fun x => by simp [detached.outline x], fun a b alive' => ?_, fun a => ?_, fun a => ?_⟩
  · unfold Regions.makeSaturated
    rw [loop]
    rfl
  · have counts := detached.counts a b
    have whole := linked.both a r alive' alive
    rw [List.take_length] at counts
    simp only [Regions.saturate_adjacent, Regions.setAdjacent_adjacent]
    by_cases self : a = r
    · simp [self]
    · by_cases target : b = r
      · subst target
        simp only [self, if_true, if_false, false_or] at counts ⊢
        omega
      · simp only [self, target, if_false, false_or] at counts ⊢
        exact counts
  · rw [Regions.saturate_saturated, Regions.setAdjacent_flags, detached.saturated]
  · rw [Regions.saturate_fragmented, Regions.setAdjacent_flags, detached.fragmented, List.take_length]

theorem Saturated.mem (saturated : Saturated live R r R') {a b : Nat} (alive : live a) :
    b ∈ (R' a).adjacentRegions ↔ b ∈ (R a).adjacentRegions ∧ a ≠ r ∧ b ≠ r := by
  have counts := saturated.counts a b alive
  rw [← List.count_pos_iff, ← List.count_pos_iff, counts]
  by_cases gone : a = r ∨ b = r
  · simp only [gone, if_true, Nat.lt_irrefl, false_iff]
    tauto
  · simp only [gone, if_false]
    tauto

theorem Saturated.none (saturated : Saturated live R r R') (alive : live r) : (R' r).adjacentRegions = [] :=
  List.eq_nil_iff_forall_not_mem.mpr fun _ member => ((saturated.mem alive).mp member).2.1 rfl

theorem Saturated.linked (saturated : Saturated live R r R') (linked : Linked live max R) : Linked live max R' := by
  refine ⟨fun a b alive alive' => ?_, fun a b alive member => ?_, fun a b alive member => ?_, fun a alive => ?_, fun a alive full => ?_⟩
  · rw [saturated.counts a b alive, saturated.counts b a alive', linked.both a b alive alive']
    exact if_congr Or.comm rfl rfl
  · exact linked.inside a b alive ((saturated.mem alive).mp member).1
  · rw [colour_eq (saturated.outline a), colour_eq (saturated.outline b)]
    exact linked.other a b alive ((saturated.mem alive).mp member).1
  · refine Nat.le_trans (List.Subperm.length_le (List.subperm_iff_count.mpr fun b => ?_)) (linked.room a alive)
    rw [saturated.counts a b alive]
    split
    · exact Nat.zero_le _
    · exact Nat.le_refl _
  · refine List.eq_nil_iff_forall_not_mem.mpr fun b member => ?_
    obtain ⟨member, other, _⟩ := (saturated.mem alive).mp member
    rcases (saturated.saturated a).mp full with self | full
    · exact other self
    · rw [linked.full a alive full] at member
      exact List.not_mem_nil member

/-! ### Ties -/

/-- Two regions list each other, or one of them has given up its list at the cost of the other. -/
def Tied (R : Regions) (a b : Nat) : Prop :=
  b ∈ (R a).adjacentRegions ∨ (R a).flags.saturated = true ∧ (R b).flags.fragmented = true ∨
    (R b).flags.saturated = true ∧ (R a).flags.fragmented = true

/-- What a change of the lists keeps. Adjacencies that were not there are `new`. -/
structure Kept (live : Nat → Prop) (max : Nat) (new : Nat → Nat → Prop) (R R' : Regions) : Prop where
  linked : Linked live max R'
  outline : ∀ x, (R' x).outline = (R x).outline
  links : ∀ a b, live a → b ∈ (R' a).adjacentRegions → b ∈ (R a).adjacentRegions ∨ new a b
  ties : ∀ a b, live a → live b → Tied R a b → Tied R' a b
  saturated : ∀ x, (R x).flags.saturated = true → (R' x).flags.saturated = true
  fragmented : ∀ x, (R x).flags.fragmented = true → (R' x).flags.fragmented = true

variable {new : Nat → Nat → Prop}

theorem Linked.kept (linked : Linked live max R) : Kept live max new R R :=
  ⟨linked, fun _ => rfl, fun _ _ _ member => .inl member, fun _ _ _ _ tied => tied, fun _ flag => flag, fun _ flag => flag⟩

theorem Kept.trans {R'' : Regions} (first : Kept live max new R R') (second : Kept live max new R' R'') : Kept live max new R R'' where
  linked := second.linked
  outline x := (second.outline x).trans (first.outline x)
  links a b alive member := (second.links a b alive member).elim (first.links a b alive) .inr
  ties a b alive alive' tied := second.ties a b alive alive' (first.ties a b alive alive' tied)
  saturated x flag := second.saturated x (first.saturated x flag)
  fragmented x flag := second.fragmented x (first.fragmented x flag)

theorem Saturated.kept (new : Nat → Nat → Prop) (saturated : Saturated live R r R') (linked : Linked live max R) (alive : live r) : Kept live max new R R' where
  linked := saturated.linked linked
  outline := saturated.outline
  links a b alive' member := .inl ((saturated.mem alive').mp member).1
  ties a b aliveA aliveB tied := by
    rcases tied with member | ⟨full, lost⟩ | ⟨full, lost⟩
    · by_cases self : a = r
      · subst self
        exact .inr (.inl ⟨(saturated.saturated a).mpr (.inl rfl), (saturated.fragmented b).mpr (.inl member)⟩)
      · by_cases target : b = r
        · subst target
          exact .inr (.inr ⟨(saturated.saturated b).mpr (.inl rfl), (saturated.fragmented a).mpr (.inl (linked.symm aliveA member))⟩)
        · exact .inl ((saturated.mem aliveA).mpr ⟨member, self, target⟩)
    · exact .inr (.inl ⟨(saturated.saturated a).mpr (.inr full), (saturated.fragmented b).mpr (.inr lost)⟩)
    · exact .inr (.inr ⟨(saturated.saturated b).mpr (.inr full), (saturated.fragmented a).mpr (.inr lost)⟩)
  saturated x flag := (saturated.saturated x).mpr (.inr flag)
  fragmented x flag := (saturated.fragmented x).mpr (.inr flag)

theorem Linked.fragment_kept (linked : Linked live max R) (r : Nat) : Kept live max new R (R.fragment r) where
  linked := by
    refine ⟨fun a b => ?_, fun a b => ?_, fun a b => ?_, fun a => ?_, fun a => ?_⟩
    · simpa only [Regions.fragment_adjacent] using linked.both a b
    · simpa only [Regions.fragment_adjacent] using linked.inside a b
    · simpa only [Regions.fragment_adjacent, colour_eq (Regions.fragment_outline r _)] using linked.other a b
    · simpa only [Regions.fragment_adjacent] using linked.room a
    · simpa only [Regions.fragment_adjacent, Regions.fragment_saturated] using linked.full a
  outline := Regions.fragment_outline r
  links a b _ member := .inl (by rwa [Regions.fragment_adjacent] at member)
  ties a b _ _ tied := by
    unfold Tied at tied ⊢
    simp only [Regions.fragment_adjacent, Regions.fragment_saturated, Regions.fragment_fragmented]
    tauto
  saturated x flag := by rwa [Regions.fragment_saturated]
  fragmented x flag := (Regions.fragment_fragmented r x).mpr (.inr flag)

theorem link_adjacent {r1 r2 : Nat} (other : r1 ≠ r2) (x : Nat) : (R.link r1 r2 x).adjacentRegions =
    if x = r1 then (R r1).adjacentRegions ++ [r2] else if x = r2 then (R r2).adjacentRegions ++ [r1] else (R x).adjacentRegions := by
  unfold Regions.link
  simp only [Regions.setAdjacent_adjacent, Ne.symm other, if_false]
  by_cases self : x = r1
  · simp [self, other]
  · simp [self]

theorem link_count {r1 r2 : Nat} (other : r1 ≠ r2) (a b : Nat) : (R.link r1 r2 a).adjacentRegions.count b =
    (R a).adjacentRegions.count b + if a = r1 ∧ b = r2 ∨ a = r2 ∧ b = r1 then 1 else 0 := by
  have single (x : Nat) : [x].count b = if b = x then 1 else 0 := by
    rw [List.count_singleton]
    exact if_congr (beq_iff_eq.trans eq_comm) rfl rfl
  rw [link_adjacent other]
  by_cases first : a = r1
  · simp only [first, other, if_true, List.count_append, single, true_and, false_and, or_false]
  · by_cases second : a = r2
    · simp only [second, Ne.symm other, if_true, if_false, List.count_append, single, true_and, false_and, false_or]
    · simp only [first, second, if_false, false_and, or_false, Nat.add_zero]

theorem Linked.link_kept (linked : Linked live max R) {r1 r2 : Nat} (alive : live r1) (alive' : live r2)
    (differ : (R r1).colour ≠ (R r2).colour) (free : (R r1).flags.saturated ≠ true) (free' : (R r2).flags.saturated ≠ true)
    (room : (R r1).adjacentRegions.length < max) (room' : (R r2).adjacentRegions.length < max) :
    Kept live max (fun a b => a = r1 ∧ b = r2 ∨ a = r2 ∧ b = r1) R (R.link r1 r2) := by
  have other : r1 ≠ r2 := fun same => differ (same ▸ rfl)
  have outline (x : Nat) : (R.link r1 r2 x).outline = (R x).outline := by simp [Regions.link]
  have flags (x : Nat) : (R.link r1 r2 x).flags = (R x).flags := by simp [Regions.link]
  have mem (a b : Nat) : b ∈ (R.link r1 r2 a).adjacentRegions ↔ b ∈ (R a).adjacentRegions ∨ a = r1 ∧ b = r2 ∨ a = r2 ∧ b = r1 := by
    rw [link_adjacent other]
    by_cases first : a = r1
    · simp [first, other]
    · by_cases second : a = r2
      · simp [second, Ne.symm other]
      · simp [first, second]
  refine ⟨⟨fun a b aliveA aliveB => ?_, fun a b aliveA member => ?_, fun a b aliveA member => ?_, fun a aliveA => ?_, fun a aliveA full => ?_⟩,
    outline, fun a b _ member => (mem a b).mp member, fun a b _ _ tied => ?_, fun x flag => by rwa [flags], fun x flag => by rwa [flags]⟩
  · rw [link_count other, link_count other, linked.both a b aliveA aliveB]
    exact congrArg _ (if_congr (by tauto) rfl rfl)
  · rcases (mem a b).mp member with member | ⟨_, rfl⟩ | ⟨_, rfl⟩
    · exact linked.inside a b aliveA member
    · exact alive'
    · exact alive
  · rw [colour_eq (outline a), colour_eq (outline b)]
    rcases (mem a b).mp member with member | ⟨rfl, rfl⟩ | ⟨rfl, rfl⟩
    · exact linked.other a b aliveA member
    · exact differ
    · exact Ne.symm differ
  · rw [link_adjacent other]
    split
    · rw [List.length_append, List.length_singleton]
      omega
    · split
      · rw [List.length_append, List.length_singleton]
        omega
      · exact linked.room a aliveA
  · rw [flags] at full
    have first : a ≠ r1 := fun self => free (self ▸ full)
    have second : a ≠ r2 := fun self => free' (self ▸ full)
    rw [link_adjacent other, if_neg first, if_neg second]
    exact linked.full a aliveA full
  · unfold Tied at tied ⊢
    rw [mem, flags, flags]
    tauto

theorem linkNew_ok (linked : Linked live max R) {r1 r2 : Nat} (alive : live r1) (alive' : live r2)
    (differ : (R r1).colour ≠ (R r2).colour) :
    ∃ R', R.linkNew max r1 r2 = .ok R' ∧ Kept live max (fun a b => a = r1 ∧ b = r2 ∨ a = r2 ∧ b = r1) R R' ∧ Tied R' r1 r2 := by
  have short1 := linked.room r1 alive
  have short2 := linked.room r2 alive'
  have second {S : Regions} (kept : Kept live max (fun a b => a = r1 ∧ b = r2 ∨ a = r2 ∧ b = r1) R S) : ∃ R',
      ((S.makeSaturated r2).map fun S => S.fragment r1) = .ok R' ∧
        Kept live max (fun a b => a = r1 ∧ b = r2 ∨ a = r2 ∧ b = r1) R R' ∧ Tied R' r1 r2 := by
    obtain ⟨T, done, saturated⟩ := makeSaturated_ok kept.linked alive'
    have onto := saturated.kept (fun a b => a = r1 ∧ b = r2 ∨ a = r2 ∧ b = r1) kept.linked alive'
    refine ⟨T.fragment r1, by rw [done]; rfl, (kept.trans onto).trans (onto.linked.fragment_kept r1), .inr (.inr ⟨?_, ?_⟩)⟩
    · rw [Regions.fragment_saturated]
      exact (saturated.saturated r2).mpr (.inl rfl)
    · exact (Regions.fragment_fragmented r1 r1).mpr (.inl rfl)
  unfold Regions.linkNew
  by_cases full1 : (R r1).flags.saturated = true
  · refine ⟨R.fragment r2, if_pos full1, linked.fragment_kept r2, .inr (.inl ⟨?_, (Regions.fragment_fragmented r2 r2).mpr (.inl rfl)⟩)⟩
    rwa [Regions.fragment_saturated]
  · rw [if_neg full1]
    by_cases full2 : (R r2).flags.saturated = true
    · refine ⟨R.fragment r1, if_pos full2, linked.fragment_kept r1, .inr (.inr ⟨?_, (Regions.fragment_fragmented r1 r1).mpr (.inl rfl)⟩)⟩
      rwa [Regions.fragment_saturated]
    · rw [if_neg full2]
      by_cases room1 : (R r1).adjacentRegions.length = max
      · rw [if_pos room1]
        obtain ⟨S, done, saturated⟩ := makeSaturated_ok linked alive
        have onto := saturated.kept (fun a b => a = r1 ∧ b = r2 ∨ a = r2 ∧ b = r1) linked alive
        have kept := onto.trans (onto.linked.fragment_kept r2)
        have tied : Tied (S.fragment r2) r1 r2 := by
          refine .inr (.inl ⟨?_, (Regions.fragment_fragmented r2 r2).mpr (.inl rfl)⟩)
          rw [Regions.fragment_saturated]
          exact (saturated.saturated r1).mpr (.inl rfl)
        rw [done]
        by_cases room2 : (S.fragment r2 r2).adjacentRegions.length = max
        · obtain ⟨R', later, kept', tied'⟩ := second kept
          exact ⟨R', (if_pos room2).trans later, kept', tied'⟩
        · exact ⟨S.fragment r2, if_neg room2, kept, tied⟩
      · rw [if_neg room1]
        by_cases room2 : (R r2).adjacentRegions.length = max
        · rw [if_pos room2]
          exact second linked.kept
        · have other : r1 ≠ r2 := fun same => differ (same ▸ rfl)
          rw [if_neg room2, if_pos ⟨by omega, by omega⟩]
          refine ⟨_, rfl, linked.link_kept alive alive' differ full1 full2 (by omega) (by omega), .inl ?_⟩
          rw [link_adjacent other, if_pos rfl]
          exact List.mem_append_right _ (List.mem_singleton_self r2)

/-- Regions of different colours are made adjacent without an assertion that fails. -/
theorem makeAdjacent_ok (linked : Linked live max R) {r1 r2 : Nat} (alive : live r1) (alive' : live r2)
    (differ : (R r1).colour ≠ (R r2).colour) :
    ∃ R', R.makeAdjacent max r1 r2 = .ok R' ∧ Kept live max (fun a b => a = r1 ∧ b = r2 ∨ a = r2 ∧ b = r1) R R' ∧ Tied R' r1 r2 := by
  have post {S : Regions} (linked : Linked live max S) : S.contains r1 r2 ↔ S.contains r2 r1 :=
    ⟨linked.symm alive, linked.symm alive'⟩
  unfold Regions.makeAdjacent
  by_cases known : R.isAdjacent r1 r2
  · rw [if_pos known]
    exact ⟨R, if_pos (post linked), linked.kept, .inl ((linked.isAdjacent alive alive').mp known)⟩
  · rw [if_neg known]
    obtain ⟨R', done, kept, tied⟩ := linkNew_ok linked alive alive' differ
    refine ⟨R', ?_, kept, tied⟩
    rw [done]
    exact if_pos (post kept.linked)

end Movid.Fiducial
