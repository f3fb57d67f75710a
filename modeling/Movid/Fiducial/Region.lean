import Mathlib.Logic.Function.Basic

/-!
# Regions of an image

The segmenter of the fiducial finder keeps for each region the regions next to it, in a list with room for `max` of them. A region that needs
more is saturated: it is taken from all lists, and whoever loses it, or cannot have it, is fragmented.
-/

namespace Movid.Fiducial

/-- An assertion that does not hold; reading or writing outside of an array or through a null pointer is not defined. -/
inductive Failure where
  | assertion
  | undefined
  | unfinished
  deriving DecidableEq

structure Flags where
  free : Bool
  adjacentToRoot : Bool
  saturated : Bool
  fragmented : Bool
  deriving DecidableEq

/-- `NO_REGION_FLAG`. -/
def Flags.none : Flags := ⟨false, false, false, false⟩

def Flags.or (f g : Flags) : Flags :=
  ⟨f.free || g.free, f.adjacentToRoot || g.adjacentToRoot, f.saturated || g.saturated, f.fragmented || g.fragmented⟩

structure Region where
  colour : UInt8
  left : Int
  top : Int
  right : Int
  bottom : Int
  flags : Flags
  level : Int
  depth : Int
  childrenVisitedCount : Int
  descendentCount : Int
  adjacentRegions : List Nat
  deriving DecidableEq

/-- The regions of the segmenter by their index. -/
abbrev Regions := Nat → Region

/-- `(short)`. -/
@[irreducible] def short (n : Nat) : Int := Int.bmod n 65536

namespace Regions

variable (R : Regions)

def setAdjacent (r : Nat) (adjacent : List Nat) : Regions := Function.update R r { R r with adjacentRegions := adjacent }

def setFlags (r : Nat) (flags : Flags) : Regions := Function.update R r { R r with flags := flags }

def saturate (r : Nat) : Regions := R.setFlags r { (R r).flags with saturated := true }

def fragment (r : Nat) : Regions := R.setFlags r { (R r).flags with fragmented := true }

/-- `r1_adjacent_contains_r2`. -/
def contains (r1 r2 : Nat) : Prop := r2 ∈ (R r1).adjacentRegions

instance (r1 r2 : Nat) : Decidable (R.contains r1 r2) := inferInstanceAs (Decidable (r2 ∈ (R r1).adjacentRegions))

/-- The shorter list is searched. -/
def isAdjacent (r1 r2 : Nat) : Prop :=
  if (R r2).adjacentRegions.length < (R r1).adjacentRegions.length then R.contains r2 r1 else R.contains r1 r2

instance (r1 r2 : Nat) : Decidable (R.isAdjacent r1 r2) :=
  inferInstanceAs (Decidable (if (R r2).adjacentRegions.length < (R r1).adjacentRegions.length then R.contains r2 r1 else R.contains r1 r2))

/-- The last entry takes the place of the one at `i`. -/
def dropAt (l : List Nat) (i : Nat) : List Nat :=
  match l.getLast? with
  | none => []
  | some last => (l.set i last).dropLast

/-- Remove `r2` from `r1`. -/
def removeAdjacentFrom (r1 r2 : Nat) : Except Failure Regions :=
  if R.contains r1 r2 then .ok (R.setAdjacent r1 (dropAt (R r1).adjacentRegions ((R r1).adjacentRegions.idxOf r2))) else .error .assertion

/-- One turn of the loop of `make_saturated`. -/
def detach (r1 : Nat) (R : Regions) (i : Nat) : Except Failure Regions :=
  match (R r1).adjacentRegions[i]? with
  | none => .error .undefined
  | some a => (R.removeAdjacentFrom a r1).map fun R => R.fragment a

def makeSaturated (r1 : Nat) : Except Failure Regions :=
  ((List.range (R r1).adjacentRegions.length).foldlM (detach r1) R).map fun R => (R.setAdjacent r1 []).saturate r1

/-- The two are entered in each other's list. -/
def link (r1 r2 : Nat) : Regions :=
  let R := R.setAdjacent r1 ((R r1).adjacentRegions ++ [r2])
  R.setAdjacent r2 ((R r2).adjacentRegions ++ [r1])

/-- What `make_adjacent` does for two that are not yet adjacent. -/
def linkNew (max r1 r2 : Nat) : Except Failure Regions :=
  if (R r1).flags.saturated then .ok (R.fragment r2)
  else if (R r2).flags.saturated then .ok (R.fragment r1)
  else if (R r1).adjacentRegions.length = max then
    (R.makeSaturated r1).bind fun R =>
      let R := R.fragment r2
      if (R r2).adjacentRegions.length = max then (R.makeSaturated r2).map fun R => R.fragment r1 else .ok R
  else if (R r2).adjacentRegions.length = max then (R.makeSaturated r2).map fun R => R.fragment r1
  else if (R r1).adjacentRegions.length < max ∧ (R r2).adjacentRegions.length < max then .ok (R.link r1 r2)
  else .error .assertion

def makeAdjacent (max r1 r2 : Nat) : Except Failure Regions :=
  (if R.isAdjacent r1 r2 then .ok R else R.linkNew max r1 r2).bind fun R =>
    if R.contains r1 r2 ↔ R.contains r2 r1 then .ok R else .error .assertion

/-- `r3` for the first `r2` in the list of `r1`. -/
def replaceAdjacent (r1 r2 r3 : Nat) : Except Failure Regions :=
  if R.contains r1 r2 then .ok (R.setAdjacent r1 ((R r1).adjacentRegions.set ((R r1).adjacentRegions.idxOf r2) r3)) else .error .assertion

/-- One turn of the first loop of `merge_regions`. It goes on behind the entry that takes the place of the one it removes. -/
def removeCommon (r1 r2 : Nat) (R : Regions) (i : Nat) : Except Failure Regions :=
  match (R r2).adjacentRegions[i]? with
  | none => .ok R
  | some a =>
    if R.isAdjacent a r1 then (R.removeAdjacentFrom a r2).map fun R => R.setAdjacent r2 (dropAt (R r2).adjacentRegions i) else .ok R

/-- One turn of the second loop. -/
def transfer (max r1 r2 : Nat) (R : Regions) (i : Nat) : Except Failure Regions :=
  match (R r2).adjacentRegions[i]? with
  | none => .error .undefined
  | some a =>
    (R.replaceAdjacent a r2 r1).bind fun R =>
      let R := R.setAdjacent r1 ((R r1).adjacentRegions ++ [a])
      if (R a).adjacentRegions.length ≤ max ∧ (R r1).adjacentRegions.length ≤ max then .ok R else .error .assertion

/-- The adjacencies of `r2` go to `r1`. -/
def mergeAdjacent (max r1 r2 : Nat) : Except Failure Regions :=
  if (R r1).flags.saturated then
    (R.makeSaturated r2).bind fun R => if (R r2).flags.saturated then R.makeSaturated r1 else .ok R
  else if (R r2).flags.saturated then R.makeSaturated r1
  else
    ((List.range (R r2).adjacentRegions.length).foldlM (removeCommon r1 r2) R).bind fun R =>
      if max < (R r1).adjacentRegions.length + (R r2).adjacentRegions.length then (R.makeSaturated r1).bind fun R => R.makeSaturated r2
      else ((List.range (R r2).adjacentRegions.length).foldlM (transfer max r1 r2) R).map fun R => R.setAdjacent r2 []

/-- The flags and the bounds of `r2` are added to those of `r1`. -/
def absorb (r1 r2 : Nat) : Regions :=
  Function.update R r1 { R r1 with
    flags := (R r1).flags.or (R r2).flags
    left := min (R r1).left (R r2).left
    top := min (R r1).top (R r2).top
    right := max (R r1).right (R r2).right
    bottom := max (R r1).bottom (R r2).bottom }

def mergeRegions (max r1 r2 : Nat) : Except Failure Regions :=
  if r1 = r2 ∨ R.contains r1 r2 ∨ R.contains r2 r1 then .error .assertion
  else (R.mergeAdjacent max r1 r2).map fun R => R.absorb r1 r2

end Regions

end Movid.Fiducial
