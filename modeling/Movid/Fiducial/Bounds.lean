import Movid.Fiducial.Pixels

/-!
# The bounds of the regions

The left and the upper bound of a region are exact at any time. The right one leaves out the pixels that have come last, and neither it nor the
lower one is kept up to date where a region is adjacent to the root.
-/

namespace Movid.Fiducial

variable {pix : Pixel → UInt8} {w h max : Nat} {S : Set Pixel} {E E' : Pixel → Prop} {own : Pixel → Nat} {R R' : Regions}

theorem short_eq {n : Nat} (small : n < 32768) : short n = n := by
  unfold short
  exact Int.bmod_eq_of_le (by omega) (by omega)

/-- The right bound need not take in the pixels in `E`. -/
structure Bounded (S : Set Pixel) (E : Pixel → Prop) (own : Pixel → Nat) (R : Regions) : Prop where
  left : ∀ p ∈ S, (R (own p)).left ≤ p.1
  top : ∀ p ∈ S, (R (own p)).top ≤ p.2
  right : ∀ p ∈ S, p.1 ≤ (R (own p)).right ∨ (R (own p)).flags.adjacentToRoot = true ∨ E p
  bottom : ∀ p ∈ S, p.2 ≤ (R (own p)).bottom ∨ (R (own p)).flags.adjacentToRoot = true
  leftmost : ∀ r, Live S own r → ∃ p ∈ S, own p = r ∧ (R r).left = p.1
  topmost : ∀ r, Live S own r → ∃ p ∈ S, own p = r ∧ (R r).top = p.2
  rightmost : ∀ r, Live S own r → ∃ p ∈ S, own p = r ∧ (R r).right = p.1
  lowest : ∀ r, Live S own r → ∃ p ∈ S, own p = r ∧ (R r).bottom = p.2

theorem Bounded.empty : Bounded ∅ E own R where
  left _ member := member.elim
  top _ member := member.elim
  right _ member := member.elim
  bottom _ member := member.elim
  leftmost r alive := absurd alive (not_live_empty own r)
  topmost r alive := absurd alive (not_live_empty own r)
  rightmost r alive := absurd alive (not_live_empty own r)
  lowest r alive := absurd alive (not_live_empty own r)

theorem Bounded.weaken (E' : Pixel → Prop) (bounded : Bounded S E own R) (more : ∀ p ∈ S, E p → (R (own p)).flags.adjacentToRoot = true ∨ E' p) :
    Bounded S E' own R :=
  { bounded with right := fun p member => (bounded.right p member).imp_right fun out => out.elim .inl (more p member) }

/-- Adjacency to the root may be found out and all but the bounds may change. -/
theorem Bounded.congr (R' : Regions) (bounded : Bounded S E own R) (left : ∀ r, Live S own r → (R' r).left = (R r).left)
    (top : ∀ r, Live S own r → (R' r).top = (R r).top) (right : ∀ r, Live S own r → (R' r).right = (R r).right)
    (bottom : ∀ r, Live S own r → (R' r).bottom = (R r).bottom)
    (root : ∀ r, Live S own r → (R r).flags.adjacentToRoot = true → (R' r).flags.adjacentToRoot = true) : Bounded S E own R' := by
  have alive {p : Pixel} (member : p ∈ S) : Live S own (own p) := ⟨p, member, rfl⟩
  refine ⟨fun p member => ?_, fun p member => ?_, fun p member => ?_, fun p member => ?_, fun r live => ?_, fun r live => ?_, fun r live => ?_,
    fun r live => ?_⟩
  · rw [left _ (alive member)]
    exact bounded.left p member
  · rw [top _ (alive member)]
    exact bounded.top p member
  · rw [right _ (alive member)]
    exact (bounded.right p member).imp_right (Or.imp_left (root _ (alive member)))
  · rw [bottom _ (alive member)]
    exact (bounded.bottom p member).imp_right (root _ (alive member))
  · rw [left r live]
    exact bounded.leftmost r live
  · rw [top r live]
    exact bounded.topmost r live
  · rw [right r live]
    exact bounded.rightmost r live
  · rw [bottom r live]
    exact bounded.lowest r live

theorem Bounded.outline (bounded : Bounded S E own R) (same : ∀ r, (R' r).outline = (R r).outline) : Bounded S E own R' := by
  refine bounded.congr _ (fun r _ => ?_) (fun r _ => ?_) (fun r _ => ?_) (fun r _ => ?_) fun r _ flag => (root_eq (same r)).trans flag
  · show (R' r).outline.left = (R r).outline.left
    rw [same r]
  · show (R' r).outline.top = (R r).outline.top
    rw [same r]
  · show (R' r).outline.right = (R r).outline.right
    rw [same r]
  · show (R' r).outline.bottom = (R r).outline.bottom
    rw [same r]

theorem Bounded.start (bounded : Bounded S E own R) {p : Pixel} {r : Nat} (outside : p ∉ S) (new : ¬ Live S own r) (colour : UInt8)
    (small : p.1 < 32768) (small' : p.2 < 32768) :
    Bounded (insert p S) E (Function.update own p r) (Function.update R r (.start p.1 p.2 colour)) := by
  have before {a : Nat} (alive : Live S own a) : Function.update R r (.start p.1 p.2 colour) a = R a :=
    Function.update_of_ne (fun same : a = r => new (same ▸ alive)) _ _
  have plain := bounded.congr (Function.update R r (.start p.1 p.2 colour)) (fun a alive => by rw [before alive])
    (fun a alive => by rw [before alive]) (fun a alive => by rw [before alive]) (fun a alive => by rw [before alive])
    fun a alive flag => by rwa [before alive]
  have fresh : Function.update R r (.start p.1 p.2 colour) r = .start p.1 p.2 colour := Function.update_self _ _ _
  have old {a : Pixel} (inside : a ∈ S) : Function.update own p r a = own a := own_update outside inside
  have live := live_update own (r := r) outside
  have column : short p.1 = p.1 := short_eq small
  have row : short p.2 = p.2 := short_eq small'
  have found (f : Region → Int) (g : Pixel → Nat) (first : f (.start p.1 p.2 colour) = g p)
      (rest : ∀ a, Live S own a → ∃ q ∈ S, own q = a ∧ f (Function.update R r (.start p.1 p.2 colour) a) = g q) (a : Nat)
      (alive : Live (insert p S) (Function.update own p r) a) :
      ∃ q ∈ insert p S, Function.update own p r q = a ∧ f (Function.update R r (.start p.1 p.2 colour) a) = g q := by
    rcases (live a).mp alive with rfl | before
    · exact ⟨p, .inl rfl, Function.update_self _ _ _, by rw [fresh, first]⟩
    · obtain ⟨q, inside, equal, bound⟩ := rest a before
      exact ⟨q, .inr inside, (old inside).trans equal, bound⟩
  refine ⟨?_, ?_, ?_, ?_, found Region.left Prod.fst column plain.leftmost, found Region.top Prod.snd row plain.topmost,
    found Region.right Prod.fst column plain.rightmost, found Region.bottom Prod.snd row plain.lowest⟩
  · rintro a (rfl | inside)
    · rw [Function.update_self, fresh]
      exact Int.le_of_eq column
    · rw [old inside]
      exact plain.left a inside
  · rintro a (rfl | inside)
    · rw [Function.update_self, fresh]
      exact Int.le_of_eq row
    · rw [old inside]
      exact plain.top a inside
  · rintro a (rfl | inside)
    · rw [Function.update_self, fresh]
      exact .inl (Int.le_of_eq column.symm)
    · rw [old inside]
      exact plain.right a inside
  · rintro a (rfl | inside)
    · rw [Function.update_self, fresh]
      exact .inl (Int.le_of_eq row.symm)
    · rw [old inside]
      exact plain.bottom a inside

/-- What is found among the pixels of a region is found there after another pixel gets the region. -/
theorem found_join {p q : Pixel} (outside : p ∉ S) (member : q ∈ S) {r : Nat} {P : Pixel → Prop}
    (found : Live S own r → ∃ a ∈ S, own a = r ∧ P a) (alive : Live (insert p S) (Function.update own p (own q)) r) :
    ∃ a ∈ insert p S, Function.update own p (own q) a = r ∧ P a := by
  obtain ⟨a, inside, equal, holds⟩ := found (((live_update own outside r).mp alive).elim (fun eq => ⟨q, member, eq.symm⟩) id)
  exact ⟨a, .inr inside, (own_update outside inside).trans equal, holds⟩

/-- The pixel that comes last gets the region of the one before it, or of the one above it. -/
theorem Bounded.join (bounded : Bounded S E own R) {p q : Pixel} (outside : p ∉ S) (member : q ∈ S) (right : q.1 ≤ p.1) (below : q.2 ≤ p.2)
    (last : E p) (deep : p.2 ≤ (R (own q)).bottom ∨ (R (own q)).flags.adjacentToRoot = true) :
    Bounded (insert p S) E (Function.update own p (own q)) R := by
  have old {a : Pixel} (inside : a ∈ S) : Function.update own p (own q) a = own a := own_update outside inside
  have left := bounded.left q member
  have top := bounded.top q member
  refine ⟨?_, ?_, ?_, ?_, fun r => found_join outside member (bounded.leftmost r), fun r => found_join outside member (bounded.topmost r),
    fun r => found_join outside member (bounded.rightmost r), fun r => found_join outside member (bounded.lowest r)⟩
  · rintro a (rfl | inside)
    · rw [Function.update_self]
      omega
    · rw [old inside]
      exact bounded.left a inside
  · rintro a (rfl | inside)
    · rw [Function.update_self]
      omega
    · rw [old inside]
      exact bounded.top a inside
  · rintro a (rfl | inside)
    · exact .inr (.inr last)
    · rw [old inside]
      exact bounded.right a inside
  · rintro a (rfl | inside)
    · rwa [Function.update_self]
    · rw [old inside]
      exact bounded.bottom a inside

/-- The pixel gets the region of the one above it, whose lower bound is moved to it. -/
theorem Bounded.joinBelow (bounded : Bounded S E own R) {p q : Pixel} (outside : p ∉ S) (member : q ∈ S) (right : q.1 ≤ p.1)
    (last : ∀ a ∈ S, a.2 ≤ p.2) (out : E p) (small : p.2 < 32768) :
    Bounded (insert p S) E (Function.update own p (own q)) (Function.update R (own q) { R (own q) with bottom := short p.2 }) := by
  have row : short p.2 = p.2 := short_eq small
  obtain ⟨R', changed⟩ : ∃ R', R' = Function.update R (own q) { R (own q) with bottom := short p.2 } := ⟨_, rfl⟩
  rw [← changed]
  have others {x : Nat} (other : x ≠ own q) : R' x = R x := by
    rw [changed]
    exact Function.update_of_ne other _ _
  have kept {α : Type} (f : Region → α) (same : f { R (own q) with bottom := short p.2 } = f (R (own q))) (x : Nat) : f (R' x) = f (R x) := by
    rw [changed]
    exact Regions.update_field f same x
  have lefts := kept Region.left rfl
  have tops := kept Region.top rfl
  have rights := kept Region.right rfl
  have roots := kept (fun r => r.flags.adjacentToRoot) rfl
  have deep : (R' (own q)).bottom = p.2 := by
    rw [changed, Function.update_self]
    exact row
  have old {a : Pixel} (inside : a ∈ S) : Function.update own p (own q) a = own a := own_update outside inside
  have low := last q member
  have left := bounded.left q member
  have top := bounded.top q member
  refine ⟨?_, ?_, ?_, ?_, fun r => found_join outside member fun alive => ?_, fun r => found_join outside member fun alive => ?_,
    fun r => found_join outside member fun alive => ?_, fun r alive => ?_⟩
  · rintro a (rfl | inside)
    · rw [Function.update_self, lefts]
      omega
    · rw [old inside, lefts]
      exact bounded.left a inside
  · rintro a (rfl | inside)
    · rw [Function.update_self, tops]
      omega
    · rw [old inside, tops]
      exact bounded.top a inside
  · rintro a (rfl | inside)
    · exact .inr (.inr out)
    · rw [old inside, rights, show (R' (own a)).flags.adjacentToRoot = (R (own a)).flags.adjacentToRoot from roots _]
      exact bounded.right a inside
  · rintro a (rfl | inside)
    · rw [Function.update_self, deep]
      exact .inl (Int.le_refl _)
    · rw [old inside, show (R' (own a)).flags.adjacentToRoot = (R (own a)).flags.adjacentToRoot from roots _]
      by_cases self : own a = own q
      · have high := last a inside
        rw [self, deep]
        exact .inl (by exact_mod_cast high)
      · rw [others self]
        exact bounded.bottom a inside
  · rw [lefts]
    exact bounded.leftmost r alive
  · rw [tops]
    exact bounded.topmost r alive
  · rw [rights]
    exact bounded.rightmost r alive
  · by_cases self : r = own q
    · exact ⟨p, .inl rfl, (Function.update_self _ _ _).trans self.symm, by rw [self, deep]⟩
    · obtain ⟨a, inside, equal, holds⟩ := bounded.lowest r (((live_update own outside r).mp alive).resolve_left self)
      exact ⟨a, .inr inside, (old inside).trans equal, by rw [others self, holds]⟩

/-- The right bound is moved to a pixel of the region. -/
theorem Bounded.widen (bounded : Bounded S E own R) {p : Pixel} (member : p ∈ S) (small : p.1 < 32768)
    (ends : ∀ q ∈ S, E q → own q = own p ∧ q.1 ≤ p.1) :
    Bounded S (fun _ => False) own
      (if (R (own p)).right < p.1 then Function.update R (own p) { R (own p) with right := short p.1 } else R) := by
  have column : short p.1 = p.1 := short_eq small
  by_cases far : (R (own p)).right < p.1
  · rw [if_pos far]
    obtain ⟨R', changed⟩ : ∃ R', R' = Function.update R (own p) { R (own p) with right := short p.1 } := ⟨_, rfl⟩
    rw [← changed]
    have kept {α : Type} (f : Region → α) (same : f { R (own p) with right := short p.1 } = f (R (own p))) (x : Nat) : f (R' x) = f (R x) := by
      rw [changed]
      exact Regions.update_field f same x
    have lefts := kept Region.left rfl
    have tops := kept Region.top rfl
    have bottoms := kept Region.bottom rfl
    have roots := kept (fun r => r.flags.adjacentToRoot) rfl
    have fresh : (R' (own p)).right = p.1 := by
      rw [changed, Function.update_self]
      exact column
    have others {x : Nat} (other : x ≠ own p) : (R' x).right = (R x).right := by rw [changed, Function.update_of_ne other]
    refine ⟨fun a inside => ?_, fun a inside => ?_, fun a inside => ?_, fun a inside => ?_, fun r live => ?_, fun r live => ?_, fun r live => ?_,
      fun r live => ?_⟩
    · rw [lefts]
      exact bounded.left a inside
    · rw [tops]
      exact bounded.top a inside
    · rw [show (R' (own a)).flags.adjacentToRoot = (R (own a)).flags.adjacentToRoot from roots _]
      by_cases self : own a = own p
      · rw [self, fresh]
        rcases bounded.right a inside with bound | root | out
        · rw [self] at bound
          exact .inl (by omega)
        · exact .inr (.inl (self ▸ root))
        · have bound := (ends a inside out).2
          exact .inl (by exact_mod_cast bound)
      · rw [others self]
        exact (bounded.right a inside).imp_right fun right => right.imp_right fun out => self (ends a inside out).1
    · rw [bottoms, show (R' (own a)).flags.adjacentToRoot = (R (own a)).flags.adjacentToRoot from roots _]
      exact bounded.bottom a inside
    · rw [lefts]
      exact bounded.leftmost r live
    · rw [tops]
      exact bounded.topmost r live
    · by_cases self : r = own p
      · exact ⟨p, member, self.symm, by rw [self, fresh]⟩
      · rw [others self]
        exact bounded.rightmost r live
    · rw [bottoms]
      exact bounded.lowest r live
  · rw [if_neg far]
    refine { bounded with right := fun a inside => ?_ }
    rcases bounded.right a inside with bound | root | out
    · exact .inl bound
    · exact .inr (.inl root)
    · obtain ⟨equal, bound⟩ := ends a inside out
      refine .inl ?_
      rw [equal]
      omega

theorem Bounded.merge (bounded : Bounded S E own R) {r1 r2 : Nat} (apart : r1 ≠ r2) (alive : Live S own r1) (alive' : Live S own r2)
    (outline : ∀ x, (R' x).outline = (R.absorb r1 r2 x).outline) : Bounded S E (remap own r1 r2) R' := by
  suffices Bounded S E (remap own r1 r2) (R.absorb r1 r2) from this.outline outline
  have fresh : R.absorb r1 r2 r1 = { R r1 with
      flags := (R r1).flags.or (R r2).flags
      left := min (R r1).left (R r2).left
      top := min (R r1).top (R r2).top
      right := Max.max (R r1).right (R r2).right
      bottom := Max.max (R r1).bottom (R r2).bottom } := Function.update_self _ _ _
  have others {x : Nat} (other : x ≠ r1) : R.absorb r1 r2 x = R x := Function.update_of_ne other _ _
  have into {a : Pixel} (other : own a ≠ r2) : remap own r1 r2 a = own a := if_neg other
  have taken {a : Pixel} (equal : own a = r2) : remap own r1 r2 a = r1 := if_pos equal
  -- where a bound of the merged region is either one of the two bounds
  have either {f : Region → Int} {g : Pixel → Nat} (found : ∀ r, Live S own r → ∃ p ∈ S, own p = r ∧ f (R r) = g p)
      (pick : f (R.absorb r1 r2 r1) = f (R r1) ∨ f (R.absorb r1 r2 r1) = f (R r2)) :
      ∀ r, Live S (remap own r1 r2) r → ∃ p ∈ S, remap own r1 r2 p = r ∧ f (R.absorb r1 r2 r) = g p := by
    intro r live
    obtain ⟨own', other⟩ := (live_remap own apart alive r).mp live
    by_cases self : r = r1
    · subst self
      rcases pick with pick | pick
      · obtain ⟨p, member, equal, bound⟩ := found r alive
        exact ⟨p, member, by rw [into (equal ▸ apart), equal], pick.trans bound⟩
      · obtain ⟨p, member, equal, bound⟩ := found r2 alive'
        exact ⟨p, member, taken equal, pick.trans bound⟩
    · obtain ⟨p, member, equal, bound⟩ := found r own'
      exact ⟨p, member, by rw [into (equal ▸ other), equal], by rw [others self, bound]⟩
  have cases_ (a : Pixel) : (own a = r2 ∨ own a = r1) ∧ remap own r1 r2 a = r1 ∨
      remap own r1 r2 a = own a ∧ R.absorb r1 r2 (own a) = R (own a) := by
    by_cases second : own a = r2
    · exact .inl ⟨.inl second, taken second⟩
    · by_cases first : own a = r1
      · exact .inl ⟨.inr first, (into second).trans first⟩
      · exact .inr ⟨into second, others first⟩
  refine ⟨fun a inside => ?_, fun a inside => ?_, fun a inside => ?_, fun a inside => ?_, either bounded.leftmost ?_, either bounded.topmost ?_,
    either bounded.rightmost ?_, either bounded.lowest ?_⟩
  · have bound := bounded.left a inside
    rcases cases_ a with ⟨which, same⟩ | ⟨same, equal⟩
    · rw [same, fresh]
      show min (R r1).left (R r2).left ≤ _
      rcases which with which | which <;> rw [which] at bound <;> omega
    · rwa [same, equal]
  · have bound := bounded.top a inside
    rcases cases_ a with ⟨which, same⟩ | ⟨same, equal⟩
    · rw [same, fresh]
      show min (R r1).top (R r2).top ≤ _
      rcases which with which | which <;> rw [which] at bound <;> omega
    · rwa [same, equal]
  · have bound := bounded.right a inside
    rcases cases_ a with ⟨which, same⟩ | ⟨same, equal⟩
    · rw [same, fresh]
      show _ ≤ Max.max (R r1).right (R r2).right ∨ ((R r1).flags.adjacentToRoot || (R r2).flags.adjacentToRoot) = true ∨ _
      rw [Bool.or_eq_true]
      rcases which with which | which <;> rw [which] at bound
      · exact bound.imp (fun bound => by omega) (Or.imp_left .inr)
      · exact bound.imp (fun bound => by omega) (Or.imp_left .inl)
    · rwa [same, equal]
  · have bound := bounded.bottom a inside
    rcases cases_ a with ⟨which, same⟩ | ⟨same, equal⟩
    · rw [same, fresh]
      show _ ≤ Max.max (R r1).bottom (R r2).bottom ∨ ((R r1).flags.adjacentToRoot || (R r2).flags.adjacentToRoot) = true
      rw [Bool.or_eq_true]
      rcases which with which | which <;> rw [which] at bound
      · exact bound.imp (fun bound => by omega) .inr
      · exact bound.imp (fun bound => by omega) .inl
    · rwa [same, equal]
  · rw [fresh]
    exact (min_choice _ _)
  · rw [fresh]
    exact (min_choice _ _)
  · rw [fresh]
    exact (max_choice _ _)
  · rw [fresh]
    exact (max_choice _ _)

end Movid.Fiducial
