import Movid.Fiducial.Region
import Movid.Lib.Redirect

/-!
# Segmentation

`build_regions` reads an image row by row and gives each pixel a reference to a region. A reference is redirected to another one when its
region is merged into that of the other.
-/

namespace Movid.Fiducial

/-- The pointers to references are their indices. Before the step the regions and the other arrays hold what an earlier image has left. -/
structure Segmenter where
  width : Nat
  height : Nat
  maxAdjacentRegions : Nat
  /-- `region_refs[i].redirect`. -/
  redirect : Nat → Nat
  /-- `region_refs[i].region`, a null pointer being `none`. -/
  region : Nat → Option Nat
  regionRefCount : Nat
  regions : Regions
  regionCount : Nat
  /-- The list that begins with `freed_regions_head`. -/
  freed : List Nat
  /-- The two halves of `regions_under_construction`. -/
  currentRow : Nat → Nat
  previousRow : Nat → Nat

/-- A new region of the pixel at `x`, `y`. -/
def Region.start (x y : Nat) (colour : UInt8) : Region where
  colour := colour
  left := short x
  top := short y
  right := short x
  bottom := short y
  flags := .none
  level := -1
  depth := 0
  childrenVisitedCount := 0
  descendentCount := 0x7FFF
  adjacentRegions := []

namespace Segmenter

/-- `initialize_segmenter`. Nothing has been written to the arrays, here they hold zeros. -/
def allocate (width height maxAdjacentRegions : Nat) : Segmenter where
  width := width
  height := height
  maxAdjacentRegions := maxAdjacentRegions
  redirect _ := 0
  region _ := none
  regionRefCount := 0
  regions _ := { Region.start 0 0 0 with level := 0, descendentCount := 0 }
  regionCount := 0
  freed := []
  currentRow _ := 0
  previousRow _ := 0

variable (s : Segmenter)

def setRegions (regions : Regions) : Segmenter := { s with regions := regions }

def setCurrent (x ref : Nat) : Segmenter := { s with currentRow := Function.update s.currentRow x ref }

/-- `ref->region`, which the caller follows. -/
def regionOf (ref : Nat) : Except Failure Nat :=
  match s.region ref with
  | none => .error .undefined
  | some r => .ok r

/-- The new region and the reference to it. -/
def newRegion (x y : Nat) (colour : UInt8) : Except Failure (Segmenter × Nat) :=
  let r := s.freed.headD s.regionCount
  let regionCount := if s.freed = [] then s.regionCount + 1 else s.regionCount
  if colour ≠ 0 ∧ colour ≠ 255 then .error .assertion
  else if s.width * s.height ≤ r ∨ s.width * s.height ≤ s.regionRefCount then .error .undefined
  else .ok
    ({ s with
        freed := s.freed.tail
        regionCount := regionCount
        regions := Function.update s.regions r (.start x y colour)
        redirect := Function.update s.redirect s.regionRefCount s.regionRefCount
        region := Function.update s.region s.regionRefCount (some r)
        regionRefCount := s.regionRefCount + 1 },
      s.regionRefCount)

/-- `RESOLVE_REGIONREF_REDIRECTS`. As many steps as there are references are enough where there is an end. -/
def resolve (r : Nat) : Except Failure (Segmenter × Nat) :=
  if s.redirect r = r then .ok (s, r)
  else
    match Redirect.follow s.redirect s.regionRefCount (s.redirect r) with
    | none => .error .unfinished
    | some result => .ok ({ s with redirect := Function.update s.redirect r result }, result)

def resolvePrevious (x : Nat) : Except Failure Segmenter :=
  (s.resolve (s.previousRow x)).map fun (s, ref) => { s with previousRow := Function.update s.previousRow x ref }

def resolveCurrent (x : Nat) : Except Failure Segmenter := (s.resolve (s.currentRow x)).map fun (s, ref) => s.setCurrent x ref

/-- `ref->region->flags |= ADJACENT_TO_ROOT_REGION_FLAG`. -/
def markRoot (ref : Nat) : Except Failure Segmenter :=
  (s.regionOf ref).map fun r => s.setRegions (s.regions.setFlags r { (s.regions r).flags with adjacentToRoot := true })

/-- The regions of two references are made adjacent. -/
def makeAdjacent (ref ref' : Nat) : Except Failure Segmenter :=
  (s.regionOf ref).bind fun r1 => (s.regionOf ref').bind fun r2 =>
    (s.regions.makeAdjacent s.maxAdjacentRegions r1 r2).map s.setRegions

variable (source : Nat → UInt8)

/-- A new region at `x`, `y` for the cell. -/
def startCell (x y : Nat) : Except Failure Segmenter :=
  (s.newRegion x y (source (y * s.width + x))).map fun (s, ref) => s.setCurrent x ref

def topFirst : Except Failure Segmenter := (s.startCell source 0 0).bind fun s => s.markRoot (s.currentRow 0)

/-- The top line from its second pixel on. -/
def topCell (s : Segmenter) (x : Nat) : Except Failure Segmenter :=
  if source x = source (x - 1) then .ok (s.setCurrent x (s.currentRow (x - 1)))
  else
    (s.startCell source x 0).bind fun s =>
      (s.markRoot (s.currentRow x)).bind fun s => s.makeAdjacent (s.currentRow x) (s.currentRow (x - 1))

/-- The rows change places. -/
def swap : Segmenter := { s with currentRow := s.previousRow, previousRow := s.currentRow }

def leftEdge (y : Nat) : Except Failure Segmenter :=
  (s.resolvePrevious 0).bind fun s =>
    (s.regionOf (s.previousRow 0)).bind fun north =>
      if source (y * s.width) = (s.regions north).colour then .ok (s.setCurrent 0 (s.previousRow 0))
      else
        (s.startCell source 0 y).bind fun s =>
          (s.markRoot (s.currentRow 0)).bind fun s => s.makeAdjacent (s.currentRow 0) (s.previousRow 0)

/-- The region of the current cell is merged into that of the previous row, freed, and its reference redirected. -/
def mergeCell (x : Nat) : Except Failure Segmenter :=
  (s.regionOf (s.previousRow x)).bind fun r1 => (s.regionOf (s.currentRow x)).bind fun r2 =>
    (s.regions.mergeRegions s.maxAdjacentRegions r1 r2).map fun R =>
      { s with
        regions := R.setFlags r2 { Flags.none with free := true }
        freed := r2 :: s.freed
        region := Function.update s.region (s.currentRow x) none
        redirect := Function.update s.redirect (s.currentRow x) (s.previousRow x)
        currentRow := Function.update s.currentRow x (s.previousRow x) }

/-- The pixel has the colour of the one before. -/
def sameCell (x y : Nat) : Except Failure Segmenter :=
  let s := s.setCurrent x (s.currentRow (x - 1))
  if s.currentRow x = s.previousRow x then .ok s
  else
    (s.regionOf (s.previousRow x)).bind fun north =>
      if source (y * s.width + x) = (s.regions north).colour then s.mergeCell x else .ok s

/-- `right` takes in the pixels up to `x`. -/
def widen (r x : Nat) : Segmenter :=
  if (s.regions r).right < x then s.setRegions (Function.update s.regions r { s.regions r with right := short x }) else s

def deepen (r y : Nat) : Segmenter := s.setRegions (Function.update s.regions r { s.regions r with bottom := short y })

/-- The pixel has another colour than the one before. -/
def otherCell (x y : Nat) : Except Failure Segmenter :=
  (s.regionOf (s.currentRow (x - 1))).bind fun west =>
    let s := s.widen west (x - 1)
    (s.regionOf (s.previousRow x)).bind fun north =>
      if source (y * s.width + x) = (s.regions north).colour then
        let s := s.setCurrent x (s.previousRow x)
        (s.regionOf (s.currentRow x)).map fun r => s.deepen r y
      else
        (s.startCell source x y).bind fun s =>
          (s.makeAdjacent (s.currentRow x) (s.previousRow x)).bind fun s =>
            (s.regionOf (s.currentRow (x - 1))).bind fun west => (s.regionOf (s.previousRow x)).bind fun north =>
              if west ≠ north then s.makeAdjacent (s.currentRow x) (s.currentRow (x - 1)) else .ok s

def cell (y : Nat) (s : Segmenter) (x : Nat) : Except Failure Segmenter :=
  (s.resolvePrevious x).bind fun s =>
    if source (y * s.width + x) = source (y * s.width + x - 1) then s.sameCell source x y else s.otherCell source x y

def line (s : Segmenter) (y : Nat) : Except Failure Segmenter :=
  (s.swap.leftEdge source y).bind fun s =>
    ((List.range' 1 (s.width - 1)).foldlM (cell source y) s).bind fun s => s.markRoot (s.currentRow (s.width - 1))

/-- A cell of the bottom row. -/
def bottomCell (s : Segmenter) (x : Nat) : Except Failure Segmenter :=
  (s.resolveCurrent x).bind fun s => s.markRoot (s.currentRow x)

def buildRegions : Except Failure Segmenter :=
  let s := { s with regionRefCount := 0, regionCount := 0, freed := [] }
  (s.topFirst source).bind fun s =>
    ((List.range' 1 (s.width - 1)).foldlM (topCell source) s).bind fun s =>
      ((List.range' 1 (s.height - 1)).foldlM (line source) s).bind fun s => (List.range s.width).foldlM bottomCell s

end Segmenter

end Movid.Fiducial
