import Movid.Lib.Loop
import Movid.Tracker.Update

/-!
# The code of `mtdev_match`

Stars, primes and covers are single bits of 32-bit words: `col_t` is one word, `mat_t` one word for each column. The distances lie in one
array, column after column. The functions `step2a` to `step5` end by calling each other, so each is the work it does before that call, and
`Call` says which of them comes next. Entries of the array are unbounded here.
-/

namespace Movid.Munkres

open Tracker (dimFinger)
open Loop (Turn)

/-! ### Bits -/

abbrev ColT := BitVec 32

abbrev MatT := Vector (BitVec 32) dimFinger

@[irreducible] def get1 (m : ColT) (x : Nat) : Bool := (m >>> x) &&& 1#32 == 1#32

@[irreducible] def set1 (m : ColT) (x : Nat) : ColT := m ||| (1#32 <<< x)

@[irreducible] def clear1 (m : ColT) (x : Nat) : ColT := m &&& ~~~(1#32 <<< x)

@[irreducible] def get2 (m : MatT) (row col : Nat) : Bool := get1 (m[col]?.getD 0) row

@[irreducible] def set2 (m : MatT) (row col : Nat) : MatT := m.setIfInBounds col (set1 (m[col]?.getD 0) row)

@[irreducible] def clear2 (m : MatT) (row col : Nat) : MatT := m.setIfInBounds col (clear1 (m[col]?.getD 0) row)

/-- A loop that counts up to `n` and breaks at the first index with the property. -/
def search (n : Nat) (p : Nat → Bool) : Nat := (List.range n).findIdx p

/-! ### The distances -/

variable {nrows ncols : Nat}

abbrev Mdist (nrows ncols : Nat) := Vector Int (nrows * ncols)

def Mdist.at (mdist : Mdist nrows ncols) (row col : Nat) : Int := mdist[row + nrows * col]?.getD 0

def Mdist.add (mdist : Mdist nrows ncols) (row col : Nat) (d : Int) : Mdist nrows ncols :=
  mdist.setIfInBounds (row + nrows * col) (mdist.at row col + d)

def minValue : List Int → Int
  | [] => 0
  | first :: rest => rest.foldl (fun least value => if value < least then value else least) first

def addRow (mdist : Mdist nrows ncols) (row : Nat) (d : Int) : Mdist nrows ncols :=
  (List.range ncols).foldl (fun mdist col => mdist.add row col d) mdist

def addCol (mdist : Mdist nrows ncols) (col : Nat) (d : Int) : Mdist nrows ncols :=
  (List.range nrows).foldl (fun mdist row => mdist.add row col d) mdist

/-! ### `ixoptimal` up to its call of `step2b` -/

structure State (nrows ncols : Nat) where
  mdist : Mdist nrows ncols
  mstar : MatT
  mprime : MatT
  ccol : ColT
  crow : ColT

def dmin (nrows ncols : Nat) : Nat := if nrows ≤ ncols then nrows else ncols

def reduceRow (mdist : Mdist nrows ncols) (row : Nat) : Mdist nrows ncols :=
  addRow mdist row (-minValue ((List.range ncols).map (mdist.at row)))

def reduceCol (mdist : Mdist nrows ncols) (col : Nat) : Mdist nrows ncols :=
  addCol mdist col (-minValue ((List.range nrows).map (mdist.at · col)))

def starRow (s : State nrows ncols) (row : Nat) : State nrows ncols :=
  let col := search ncols fun col => s.mdist.at row col == 0 && !get1 s.ccol col
  if col < ncols then { s with mstar := set2 s.mstar row col, ccol := set1 s.ccol col } else s

def starCol (s : State nrows ncols) (col : Nat) : State nrows ncols :=
  let row := search nrows fun row => s.mdist.at row col == 0 && !get1 s.crow row
  if row < nrows then { s with mstar := set2 s.mstar row col, ccol := set1 s.ccol col, crow := set1 s.crow row } else s

def blank (mdist : Mdist nrows ncols) : State nrows ncols :=
  { mdist, mstar := Vector.replicate _ 0, mprime := Vector.replicate _ 0, ccol := 0, crow := 0 }

def prepare (mdist : Mdist nrows ncols) : State nrows ncols :=
  if nrows ≤ ncols then (List.range nrows).foldl starRow (blank ((List.range nrows).foldl reduceRow mdist))
  else { (List.range ncols).foldl starCol (blank ((List.range ncols).foldl reduceCol mdist)) with crow := 0 }

/-! ### The steps -/

def buildixvector (mstar : MatT) (nrows ncols : Nat) : List Int :=
  (List.range nrows).map fun row =>
    let col := search ncols (get2 mstar row)
    if col < ncols then col else -1

/-- Covers every column that has a star. -/
def step2a (s : State nrows ncols) : State nrows ncols :=
  let cover := fun ccol col => if search nrows (get2 s.mstar · col) < nrows then set1 ccol col else ccol
  { s with ccol := (List.range ncols).foldl cover s.ccol }

/-- The number of covered columns. -/
def ncc (s : State nrows ncols) : Nat := (List.range ncols).countP (get1 s.ccol)

/-- How a pass over the columns ends: at a primed zero whose row has no star, or after the last column. -/
inductive Pass (nrows ncols : Nat) where
  | starless (s : State nrows ncols) (row col : Nat)
  | passed (s : State nrows ncols) (zerosFound : Bool)

/-- The body of `while (zerosFound)`, for the columns that are left of the pass. -/
def step3 : List Nat → State nrows ncols → Bool → Pass nrows ncols
  | [], s, zerosFound => .passed s zerosFound
  | col :: cols, s, zerosFound =>
    if get1 s.ccol col then step3 cols s zerosFound
    else
      let row := search nrows fun row => s.mdist.at row col == 0 && !get1 s.crow row
      if row < nrows then
        let cstar := search ncols (get2 s.mstar row)
        let s := { s with mprime := set2 s.mprime row col }
        if cstar = ncols then .starless s row col
        else step3 cols { s with crow := set1 s.crow row, ccol := clear1 s.ccol cstar } true
      else step3 cols s zerosFound

/-- `nmstar`, `rstar` and `cstar` at the head of the loop of `step4`. -/
structure Path where
  nmstar : MatT
  rstar : Nat
  cstar : Nat

def pathTurn (s : State nrows ncols) (p : Path) : Turn Path MatT :=
  if p.rstar < nrows then
    let primeCol := search ncols (get2 s.mprime p.rstar)
    .again
      { nmstar := set2 (clear2 p.nmstar p.rstar p.cstar) p.rstar primeCol
        rstar := search nrows (get2 s.mstar · primeCol)
        cstar := primeCol }
  else .done p.nmstar

/-- Each turn of the loop is in another row, so `nrows` turns are enough. -/
def step4 (s : State nrows ncols) (row col : Nat) : Option (State nrows ncols) :=
  (Loop.run (pathTurn s) (nrows + 1)
    { nmstar := set2 s.mstar row col, rstar := search nrows (get2 s.mstar · col), cstar := col }).map
    fun nmstar => { s with mstar := nmstar, mprime := Vector.replicate _ 0, crow := 0 }

/-- The smallest uncovered element. -/
def uncovered (s : State nrows ncols) : List Int :=
  ((List.range nrows).filter (!get1 s.crow ·)).flatMap fun row =>
    ((List.range ncols).filter (!get1 s.ccol ·)).map (s.mdist.at row)

/-- The distances between the two loops of `step5` that write. -/
def addRows (s : State nrows ncols) (h : Int) : Mdist nrows ncols :=
  ((List.range nrows).filter (get1 s.crow ·)).foldl (fun mdist row => addRow mdist row h) s.mdist

def step5 (s : State nrows ncols) : Option (State nrows ncols) :=
  if uncovered s = [] then none
  else
    let h := minValue (uncovered s)
    let mdist := ((List.range ncols).filter (!get1 s.ccol ·)).foldl (fun mdist col => addCol mdist col (-h)) (addRows s h)
    some { s with mdist }

inductive Call where
  | step2a
  | step2b
  | step3
  | step4 (row col : Nat)
  | step5

/-- `step2a`, `step2b` and so on, up to the call that each ends with. `step5` can return without a result: then `ix` has been left alone. -/
def turn : Call × State nrows ncols → Turn (Call × State nrows ncols) (Option (List Int))
  | (.step2a, s) => .again (.step2b, step2a s)
  | (.step2b, s) => if ncc s = dmin nrows ncols then .done (some (buildixvector s.mstar nrows ncols)) else .again (.step3, s)
  | (.step3, s) =>
    match step3 (List.range ncols) s false with
    | .starless s row col => .again (.step4 row col, s)
    | .passed s true => .again (.step3, s)
    | .passed s false => .again (.step5, s)
  | (.step4 row col, s) =>
    match step4 s row col with
    | some s => .again (.step2a, s)
    | none => .done none
  | (.step5, s) =>
    match step5 s with
    | some s => .again (.step3, s)
    | none => .done (some (List.replicate nrows (-1)))

/-- Between two visits of `step2a` each row is covered at most once, by three calls at most. -/
def turns (nrows ncols : Nat) : Nat := (dmin nrows ncols + 1) * (3 * nrows + 6)

def load (A : List Int) (nrows ncols : Nat) : Mdist nrows ncols := Vector.ofFn fun i => A.getD i 0

/-- `none` when the recursion does not end. -/
def ixoptimal (A : List Int) (nrows ncols : Nat) : Option (List Int) :=
  (Loop.run turn (turns nrows ncols) (.step2b, prepare (load A nrows ncols))).join

end Movid.Munkres
