import Mathlib.Data.Set.Insert
import Mathlib.Logic.Relation
import Movid.Fiducial.Merge
import Movid.Fiducial.Segment

/-!
# Pixels and their regions

`S` are the pixels that have a region, and `own` says which. For the pixels in `K` it has been seen to their neighbours in `K` as well, and the
regions of those in `M` are known to be adjacent to the root.
-/

namespace Movid.Fiducial

abbrev Pixel := Nat × Nat

def Near (p q : Pixel) : Prop := p.2 = q.2 ∧ (p.1 + 1 = q.1 ∨ q.1 + 1 = p.1) ∨ p.1 = q.1 ∧ (p.2 + 1 = q.2 ∨ q.2 + 1 = p.2)

theorem Near.symm {p q : Pixel} (near : Near p q) : Near q p := by
  unfold Near at *
  omega

/-- One gets from `p` to `q` inside of `S` over neighbours of the same colour. -/
def Joined (pix : Pixel → UInt8) (S : Set Pixel) : Pixel → Pixel → Prop :=
  Relation.ReflTransGen fun p q => p ∈ S ∧ q ∈ S ∧ Near p q ∧ pix p = pix q

def Live (S : Set Pixel) (own : Pixel → Nat) (r : Nat) : Prop := ∃ p ∈ S, own p = r

/-- The pixels along the edges of an image. -/
def Edge (w h : Nat) (p : Pixel) : Prop := p.1 = 0 ∨ p.2 = 0 ∨ p.1 + 1 = w ∨ p.2 + 1 = h

variable {pix : Pixel → UInt8} {w h max : Nat} {S K M : Set Pixel} {own : Pixel → Nat} {home : Nat → Nat} {R R' : Regions} {s : Segmenter}

theorem Joined.symm {p q : Pixel} (joined : Joined pix S p q) : Joined pix S q p := by
  induction joined with
  | refl => exact .refl
  | tail _ step ih =>
    obtain ⟨first, second, near, same⟩ := step
    exact Relation.ReflTransGen.head ⟨second, first, near.symm, same.symm⟩ ih

theorem Joined.mono {S' : Set Pixel} (more : S ⊆ S') {p q : Pixel} (joined : Joined pix S p q) : Joined pix S' p q := by
  induction joined with
  | refl => exact .refl
  | tail _ step ih =>
    obtain ⟨first, second, rest⟩ := step
    exact Relation.ReflTransGen.tail ih ⟨more first, more second, rest⟩

theorem Joined.next {p q : Pixel} (first : p ∈ S) (second : q ∈ S) (near : Near p q) (same : pix p = pix q) : Joined pix S p q :=
  Relation.ReflTransGen.single ⟨first, second, near, same⟩

/-! ### The regions of the pixels -/

structure Drawn (pix : Pixel → UInt8) (w h max : Nat) (S K M : Set Pixel) (own : Pixel → Nat) (R : Regions) : Prop where
  done : K ⊆ S
  marks : M ⊆ S
  binary : ∀ p ∈ S, pix p = 0 ∨ pix p = 255
  joined : ∀ p ∈ S, ∀ q ∈ S, own p = own q → Joined pix S p q
  colour : ∀ p ∈ S, (R (own p)).colour = pix p
  linked : Linked (Live S own) max R
  near : ∀ a b, Live S own a → b ∈ (R a).adjacentRegions → ∃ p ∈ S, ∃ q ∈ S, Near p q ∧ own p = a ∧ own q = b
  border : ∀ r, Live S own r → (R r).flags.adjacentToRoot = true → ∃ p ∈ S, own p = r ∧ Edge w h p
  merged : ∀ p ∈ K, ∀ q ∈ K, Near p q → pix p = pix q → own p = own q
  complete : ∀ p ∈ K, ∀ q ∈ K, Near p q → pix p ≠ pix q → Tied R (own p) (own q)
  marked : ∀ p ∈ M, (R (own p)).flags.adjacentToRoot = true

theorem Drawn.alive (_ : Drawn pix w h max S K M own R) {p : Pixel} (member : p ∈ S) : Live S own (own p) := ⟨p, member, rfl⟩

theorem not_live_empty (own : Pixel → Nat) (r : Nat) : ¬ Live ∅ own r := by
  rintro ⟨p, member, _⟩
  exact member

theorem Drawn.empty : Drawn pix w h max ∅ ∅ ∅ own R where
  done := subset_rfl
  marks := subset_rfl
  binary _ member := member.elim
  joined _ member := member.elim
  colour _ member := member.elim
  linked := ⟨fun a _ alive => absurd alive (not_live_empty own a), fun a _ alive => absurd alive (not_live_empty own a),
    fun a _ alive => absurd alive (not_live_empty own a), fun a alive => absurd alive (not_live_empty own a),
    fun a alive => absurd alive (not_live_empty own a)⟩
  near a _ alive := absurd alive (not_live_empty own a)
  border r alive := absurd alive (not_live_empty own r)
  merged _ member := member.elim
  complete _ member := member.elim
  marked _ member := member.elim

/-- Regions that belong to no pixel, and what the drawing does not depend on, may change. -/
theorem Drawn.congr (R' : Regions) (drawn : Drawn pix w h max S K M own R) (lists : ∀ r, Live S own r → (R' r).adjacentRegions = (R r).adjacentRegions)
    (colours : ∀ r, Live S own r → (R' r).colour = (R r).colour) (flags : ∀ r, Live S own r → (R' r).flags = (R r).flags) :
    Drawn pix w h max S K M own R' := by
  have linked := drawn.linked
  refine { drawn with
    colour := fun p member => (colours _ (drawn.alive member)).trans (drawn.colour p member)
    linked := ⟨fun a b own own' => ?_, fun a b own member => ?_, fun a b own member => ?_, fun a own => ?_, fun a own full => ?_⟩
    near := fun a b alive member => drawn.near a b alive (by rwa [lists a alive] at member)
    border := fun r alive flag => drawn.border r alive (by rwa [flags r alive] at flag)
    complete := fun p first q second near differ => ?_
    marked := fun p member => by rw [flags _ (drawn.alive (drawn.marks member))]; exact drawn.marked p member }
  · rw [lists a own, lists b own']
    exact linked.both a b own own'
  · rw [lists a own] at member
    exact linked.inside a b own member
  · rw [lists a own] at member
    rw [colours a own, colours b (linked.inside a b own member)]
    exact linked.other a b own member
  · rw [lists a own]
    exact linked.room a own
  · rw [flags a own] at full
    rw [lists a own]
    exact linked.full a own full
  · have tied := drawn.complete p first q second near differ
    have alive := drawn.alive (drawn.done first)
    have alive' := drawn.alive (drawn.done second)
    unfold Tied at tied ⊢
    rwa [lists _ alive, flags _ alive, flags _ alive']

theorem root_eq {r : Nat} (same : (R' r).outline = (R r).outline) : (R' r).flags.adjacentToRoot = (R r).flags.adjacentToRoot := by
  show (R' r).outline.flags.adjacentToRoot = (R r).outline.flags.adjacentToRoot
  rw [same]

theorem free_eq {r : Nat} (same : (R' r).outline = (R r).outline) : (R' r).flags.free = (R r).flags.free := by
  show (R' r).outline.flags.free = (R r).outline.flags.free
  rw [same]

/-- Regions are made adjacent that belong to neighbours. -/
theorem Drawn.tie (drawn : Drawn pix w h max S K M own R) {new : Nat → Nat → Prop} (kept : Kept (Live S own) max new R R')
    (beside : ∀ a b, new a b → ∃ p ∈ S, ∃ q ∈ S, Near p q ∧ own p = a ∧ own q = b) : Drawn pix w h max S K M own R' :=
  { drawn with
    colour := fun p member => (colour_eq (kept.outline _)).trans (drawn.colour p member)
    linked := kept.linked
    near := fun a b alive member => (kept.links a b alive member).elim (drawn.near a b alive) (beside a b)
    border := fun r alive flag => drawn.border r alive (by rwa [root_eq (kept.outline r)] at flag)
    complete := fun p first q second near differ => kept.ties _ _ (drawn.alive (drawn.done first)) (drawn.alive (drawn.done second))
      (drawn.complete p first q second near differ)
    marked := fun p member => (root_eq (kept.outline _)).trans (drawn.marked p member) }

/-- It has been seen to the neighbours of one more pixel. -/
theorem Drawn.close (drawn : Drawn pix w h max S K M own R) {p : Pixel} (member : p ∈ S)
    (same : ∀ q ∈ K, Near p q → pix p = pix q → own p = own q)
    (differ : ∀ q ∈ K, Near p q → pix p ≠ pix q → Tied R (own p) (own q)) : Drawn pix w h max S (insert p K) M own R := by
  refine { drawn with
    done := Set.insert_subset member drawn.done
    merged := fun a first b second near equal => ?_
    complete := fun a first b second near other => ?_ }
  · rcases first with rfl | first
    · rcases second with rfl | second
      · rfl
      · exact same b second near equal
    · rcases second with rfl | second
      · exact (same a first near.symm equal.symm).symm
      · exact drawn.merged a first b second near equal
  · rcases first with rfl | first
    · rcases second with rfl | second
      · exact absurd rfl other
      · exact differ b second near other
    · rcases second with rfl | second
      · exact (differ a first near.symm (Ne.symm other)).symm drawn.linked (drawn.alive member)
      · exact drawn.complete a first b second near other

theorem Drawn.mark (drawn : Drawn pix w h max S K M own R) {p : Pixel} (member : p ∈ S) (flag : (R (own p)).flags.adjacentToRoot = true) :
    Drawn pix w h max S K (insert p M) own R :=
  { drawn with
    marks := Set.insert_subset member drawn.marks
    marked := fun q marked => marked.elim (fun same => same ▸ flag) (drawn.marked q) }

/-! ### One more pixel -/

theorem own_update {p q : Pixel} {r : Nat} (outside : p ∉ S) (member : q ∈ S) : Function.update own p r q = own q :=
  Function.update_of_ne (fun same : q = p => outside (same ▸ member)) _ _

theorem live_update (own : Pixel → Nat) {p : Pixel} {r : Nat} (outside : p ∉ S) (x : Nat) :
    Live (insert p S) (Function.update own p r) x ↔ x = r ∨ Live S own x := by
  constructor
  · rintro ⟨q, rfl | member, same⟩
    · exact .inl (by rw [← same, Function.update_self])
    · exact .inr ⟨q, member, by rw [← same, own_update outside member]⟩
  · rintro (rfl | ⟨q, member, same⟩)
    · exact ⟨p, .inl rfl, Function.update_self _ _ _⟩
    · exact ⟨q, .inr member, by rw [own_update outside member, same]⟩

/-- The pixel gets the region of a neighbour of the same colour. -/
theorem Drawn.join (drawn : Drawn pix w h max S K M own R) {p q : Pixel} (outside : p ∉ S) (member : q ∈ S) (beside : Near p q)
    (same : pix p = pix q) : Drawn pix w h max (insert p S) K M (Function.update own p (own q)) R := by
  have live (x : Nat) : Live (insert p S) (Function.update own p (own q)) x ↔ Live S own x := by
    rw [live_update own outside]
    exact or_iff_right_of_imp fun eq => ⟨q, member, eq.symm⟩
  have old {a : Pixel} (inside : a ∈ S) : Function.update own p (own q) a = own a := own_update outside inside
  have link {a : Pixel} (inside : a ∈ S) (equal : own q = own a) : Joined pix (insert p S) p a :=
    (Joined.next (.inl rfl) (.inr member) beside same).trans ((drawn.joined q member a inside equal).mono (Set.subset_insert p S))
  refine ⟨drawn.done.trans (Set.subset_insert p S), drawn.marks.trans (Set.subset_insert p S), ?_, ?_, ?_, ?_, ?_, ?_, ?_, ?_, ?_⟩
  · rintro a (rfl | inside)
    · exact same ▸ drawn.binary q member
    · exact drawn.binary a inside
  · rintro a (rfl | inside) b (rfl | inside') equal
    · exact .refl
    · rw [Function.update_self, old inside'] at equal
      exact link inside' equal
    · rw [Function.update_self, old inside] at equal
      exact (link inside equal.symm).symm
    · rw [old inside, old inside'] at equal
      exact (drawn.joined a inside b inside' equal).mono (Set.subset_insert p S)
  · rintro a (rfl | inside)
    · rw [Function.update_self, same]
      exact drawn.colour q member
    · rw [old inside]
      exact drawn.colour a inside
  · rw [show Live (insert p S) (Function.update own p (own q)) = Live S own from funext fun x => propext (live x)]
    exact drawn.linked
  · intro a b alive listed
    obtain ⟨c, first, d, second, near, one, two⟩ := drawn.near a b ((live a).mp alive) listed
    exact ⟨c, .inr first, d, .inr second, near, (old first).trans one, (old second).trans two⟩
  · intro r alive flag
    obtain ⟨c, first, equal, edge⟩ := drawn.border r ((live r).mp alive) flag
    exact ⟨c, .inr first, (old first).trans equal, edge⟩
  · intro a first b second near equal
    rw [old (drawn.done first), old (drawn.done second)]
    exact drawn.merged a first b second near equal
  · intro a first b second near differ
    rw [old (drawn.done first), old (drawn.done second)]
    exact drawn.complete a first b second near differ
  · intro a marked
    rw [old (drawn.marks marked)]
    exact drawn.marked a marked

/-- The pixel gets a region of its own. -/
theorem Drawn.start (drawn : Drawn pix w h max S K M own R) {p : Pixel} {r : Nat} (outside : p ∉ S) (new : ¬ Live S own r)
    (binary : pix p = 0 ∨ pix p = 255) (x y : Nat) :
    Drawn pix w h max (insert p S) K M (Function.update own p r) (Function.update R r (.start x y (pix p))) := by
  have other {a : Pixel} (inside : a ∈ S) : own a ≠ r := fun same => new ⟨a, inside, same⟩
  have before {a : Nat} (alive : Live S own a) : Function.update R r (.start x y (pix p)) a = R a :=
    Function.update_of_ne (fun same : a = r => new (same ▸ alive)) _ _
  have plain := drawn.congr (Function.update R r (.start x y (pix p))) (fun a alive => by rw [before alive])
    (fun a alive => by rw [before alive]) (fun a alive => by rw [before alive])
  have fresh : Function.update R r (.start x y (pix p)) r = .start x y (pix p) := Function.update_self _ _ _
  have old {a : Pixel} (inside : a ∈ S) : Function.update own p r a = own a := own_update outside inside
  have live := live_update own (r := r) outside
  have linked := plain.linked
  refine ⟨drawn.done.trans (Set.subset_insert p S), drawn.marks.trans (Set.subset_insert p S), ?_, ?_, ?_,
    ⟨fun a b own own' => ?_, fun a b own listed => ?_, fun a b own listed => ?_, fun a own => ?_, fun a own full => ?_⟩, ?_, ?_, ?_, ?_, ?_⟩
  · rintro a (rfl | inside)
    · exact binary
    · exact drawn.binary a inside
  · rintro a (rfl | inside) b (rfl | inside') equal
    · exact .refl
    · rw [Function.update_self, old inside'] at equal
      exact absurd equal.symm (other inside')
    · rw [Function.update_self, old inside] at equal
      exact absurd equal (other inside)
    · rw [old inside, old inside'] at equal
      exact (drawn.joined a inside b inside' equal).mono (Set.subset_insert p S)
  · rintro a (rfl | inside)
    · rw [Function.update_self, fresh]
      rfl
    · rw [old inside]
      exact plain.colour a inside
  · have none {a : Nat} (alive : Live S _ a) : (Function.update R r (.start x y (pix p)) a).adjacentRegions.count r = 0 :=
      List.count_eq_zero.mpr fun listed => new (linked.inside a r alive listed)
    rcases (live a).mp own with rfl | first
    · rcases (live b).mp own' with rfl | second
      · rfl
      · rw [none second, fresh]
        rfl
    · rcases (live b).mp own' with rfl | second
      · rw [none first, fresh]
        rfl
      · exact linked.both a b first second
  · rcases (live a).mp own with rfl | first
    · rw [fresh] at listed
      exact absurd listed List.not_mem_nil
    · exact (live b).mpr (.inr (linked.inside a b first listed))
  · rcases (live a).mp own with rfl | first
    · rw [fresh] at listed
      exact absurd listed List.not_mem_nil
    · exact linked.other a b first listed
  · rcases (live a).mp own with rfl | first
    · rw [fresh]
      exact Nat.zero_le _
    · exact linked.room a first
  · rcases (live a).mp own with rfl | first
    · rw [fresh]
      rfl
    · exact linked.full a first full
  · intro a b alive listed
    rcases (live a).mp alive with rfl | first
    · rw [fresh] at listed
      exact absurd listed List.not_mem_nil
    · obtain ⟨c, inside, d, inside', near, one, two⟩ := plain.near a b first listed
      exact ⟨c, .inr inside, d, .inr inside', near, (old inside).trans one, (old inside').trans two⟩
  · intro a alive flag
    rcases (live a).mp alive with rfl | first
    · rw [fresh] at flag
      exact absurd flag Bool.false_ne_true
    · obtain ⟨c, inside, equal, edge⟩ := plain.border a first flag
      exact ⟨c, .inr inside, (old inside).trans equal, edge⟩
  · intro a first b second near equal
    rw [old (drawn.done first), old (drawn.done second)]
    exact drawn.merged a first b second near equal
  · intro a first b second near differ
    rw [old (drawn.done first), old (drawn.done second)]
    exact plain.complete a first b second near differ
  · intro a marked
    rw [old (drawn.marks marked)]
    exact plain.marked a marked

/-! ### Two regions become one -/

/-- The region of a pixel after `r2` was merged into `r1`. -/
def remap (own : Pixel → Nat) (r1 r2 : Nat) (p : Pixel) : Nat := if own p = r2 then r1 else own p

theorem live_remap (own : Pixel → Nat) {r1 r2 : Nat} (apart : r1 ≠ r2) (alive : Live S own r1) (x : Nat) :
    Live S (remap own r1 r2) x ↔ Live S own x ∧ x ≠ r2 := by
  unfold Live remap
  constructor
  · rintro ⟨p, member, rfl⟩
    split
    · exact ⟨alive, apart⟩
    · rename_i other
      exact ⟨⟨p, member, rfl⟩, other⟩
  · rintro ⟨⟨p, member, rfl⟩, other⟩
    exact ⟨p, member, if_neg other⟩

theorem Drawn.merge (drawn : Drawn pix w h max S K M own R) {p n : Pixel} (member : p ∈ S) (member' : n ∈ S) (beside : Near p n)
    (same : pix p = pix n) (apart : own n ≠ own p) (result : Merged (Live S own) max R (own n) (own p) R') :
    Drawn pix w h max S K M (remap own (own n) (own p)) R' := by
  have alive := drawn.alive member'
  have live := live_remap own apart alive
  have linked := result.linked
  rw [show (fun r => Live S own r ∧ r ≠ own p) = Live S (remap own (own n) (own p)) from funext fun x => propext (live x).symm] at linked
  have bridge : Joined pix S p n := Joined.next member member' beside same
  have colours (x : Nat) : (R' x).colour = (R x).colour := (colour_eq (result.outline x)).trans (absorb_colour x)
  have rooted (x : Nat) : (R' x).flags.adjacentToRoot = true ↔
      (R x).flags.adjacentToRoot = true ∨ x = own n ∧ (R (own p)).flags.adjacentToRoot = true := by
    rw [root_eq (result.outline x)]
    unfold Regions.absorb
    by_cases self : x = own n
    · simp [self, Flags.or]
    · rw [Function.update_of_ne self]
      simp [self]
  have into {a : Pixel} {b : Nat} (equal : own a = b) (other : b ≠ own p) : remap own (own n) (own p) a = b := by
    unfold remap
    rw [if_neg (equal ▸ other), equal]
  have taken {a : Pixel} (equal : own a = own p) : remap own (own n) (own p) a = own n := if_pos equal
  refine { drawn with
    joined := fun a first b second equal => ?_
    colour := fun a inside => ?_
    linked := linked
    near := fun a b own' listed => ?_
    border := fun r own' flag => ?_
    merged := fun a first b second near equal => ?_
    complete := fun a first b second near differ => ?_
    marked := fun a marked => ?_ }
  · by_cases one : own a = own p
    · by_cases two : own b = own p
      · exact drawn.joined a first b second (one.trans two.symm)
      · rw [taken one, into rfl two] at equal
        exact (drawn.joined a first p member one).trans (bridge.trans (drawn.joined n member' b second equal))
    · by_cases two : own b = own p
      · rw [taken two, into rfl one] at equal
        exact ((drawn.joined a first n member' equal).trans bridge.symm).trans (drawn.joined p member b second two.symm)
      · rw [into rfl one, into rfl two] at equal
        exact drawn.joined a first b second equal
  · rw [colours]
    by_cases one : own a = own p
    · rw [taken one, drawn.colour n member', ← same, ← drawn.colour p member, ← one, drawn.colour a inside]
    · rw [into rfl one]
      exact drawn.colour a inside
  · obtain ⟨one, other⟩ := (live a).mp own'
    have other' := ((live b).mp (linked.inside a b own' listed)).2
    rcases result.links a b one listed with before | ⟨rfl, before⟩ | ⟨rfl, before⟩
    · obtain ⟨c, inside, d, inside', near, eq, eq'⟩ := drawn.near a b one before
      exact ⟨c, inside, d, inside', near, into eq other, into eq' other'⟩
    · obtain ⟨c, inside, d, inside', near, eq, eq'⟩ := drawn.near _ b (drawn.alive member) before
      exact ⟨c, inside, d, inside', near, taken eq, into eq' other'⟩
    · obtain ⟨c, inside, d, inside', near, eq, eq'⟩ := drawn.near a _ one before
      exact ⟨c, inside, d, inside', near, into eq other, taken eq'⟩
  · obtain ⟨one, other⟩ := (live r).mp own'
    rcases (rooted r).mp flag with before | ⟨rfl, before⟩
    · obtain ⟨c, inside, eq, edge⟩ := drawn.border r one before
      exact ⟨c, inside, into eq other, edge⟩
    · obtain ⟨c, inside, eq, edge⟩ := drawn.border _ (drawn.alive member) before
      exact ⟨c, inside, taken eq, edge⟩
  · unfold remap
    rw [drawn.merged a first b second near equal]
  · exact result.ties _ _ (drawn.alive (drawn.done first)) (drawn.alive (drawn.done second)) (drawn.complete a first b second near differ)
  · rw [rooted]
    have flag := drawn.marked a marked
    by_cases one : own a = own p
    · rw [taken one]
      exact .inr ⟨rfl, one ▸ flag⟩
    · rw [into rfl one]
      exact .inl flag

end Movid.Fiducial
