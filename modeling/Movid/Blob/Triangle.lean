import Movid.Blob.Tracking
import Movid.Lib.Barycentric
import Mathlib.Algebra.Order.Ring.Rat
import Mathlib.Tactic.NormNum

/-!
# Calibration in a triangle

In exact arithmetic `interpolate` is the barycentric transform, so it agrees with every affine map that moves the corners,
with the branch of the vertices, and with the triangle on the other side of an edge.
-/

namespace Movid

open Preset (Platform)

variable {P : Platform}

/-- Where the container is. -/
def Container.point (ops : Doubles P.Double) (c : Container P) : Option (P.Double × P.Double) := do
  let x ← c.double ops "x"
  let y ← c.double ops "y"
  some (x, y)

namespace Blobs

section Code

variable {D : Type} (ops : Doubles D)

def Vertex.surface (v : Vertex D) : D × D := (v.x, v.y)

def Vertex.screen (v : Vertex D) : D × D := (v.screenX, v.screenY)

/-- The places of the corners. -/
def surfaces (a b c : Vertex D) : Fin 3 → D × D := ![a.surface, b.surface, c.surface]

def screens (a b c : Vertex D) : Fin 3 → D × D := ![a.screen, b.screen, c.screen]

theorem exists_corner {a b c v : Vertex D} (member : v ∈ [a, b, c]) : ∃ i, surfaces a b c i = v.surface ∧ screens a b c i = v.screen := by
  simp only [List.mem_cons, List.not_mem_nil, or_false] at member
  obtain rfl | rfl | rfl := member
  · exact ⟨0, rfl, rfl⟩
  · exact ⟨1, rfl, rfl⟩
  · exact ⟨2, rfl, rfl⟩

def entireArea (a b c : Vertex D) : D :=
  ops.sub (ops.mul (ops.sub a.x b.x) (ops.sub a.y c.y)) (ops.mul (ops.sub a.y b.y) (ops.sub a.x c.x))

/-- `alpha`, `beta` and `gamma`. -/
def weights (a b c : Vertex D) (x y : D) : D × D × D :=
  let areaA := ops.sub (ops.mul (ops.sub x b.x) (ops.sub y c.y)) (ops.mul (ops.sub y b.y) (ops.sub x c.x))
  let areaB := ops.sub (ops.mul (ops.sub a.x x) (ops.sub a.y c.y)) (ops.mul (ops.sub a.y y) (ops.sub a.x c.x))
  let alpha := ops.div areaA (entireArea ops a b c)
  let beta := ops.div areaB (entireArea ops a b c)
  (alpha, beta, ops.sub (ops.sub (ops.ofInt 1) alpha) beta)

theorem interpolate_eq (a b c : Vertex D) (x y : D) : interpolate ops a b c x y =
    (ops.add (ops.add (ops.mul (weights ops a b c x y).1 a.screenX) (ops.mul (weights ops a b c x y).2.1 b.screenX))
      (ops.mul (weights ops a b c x y).2.2 c.screenX),
    ops.add (ops.add (ops.mul (weights ops a b c x y).1 a.screenY) (ops.mul (weights ops a b c x y).2.1 b.screenY))
      (ops.mul (weights ops a b c x y).2.2 c.screenY)) := rfl

end Code

section Paths

variable (ops : Doubles P.Double) {blob out : Container P} {locate : P.Double → P.Double → Location P.Double}

theorem point_put (c : Container P) (x y : P.Double) : ((c.put "x" (.double x)).put "y" (.double y)).point ops = some (x, y) := by
  have first : ((c.put "x" (.double x)).put "y" (.double y)).find "x" = some (.double x) := by
    rw [Container.find_put, if_neg (by decide), Container.find_put, if_pos rfl]
  have second : ((c.put "x" (.double x)).put "y" (.double y)).find "y" = some (.double y) := by
    rw [Container.find_put, if_pos rfl]
  simp [Container.point, Container.double, first, second, Preset.Value.asDouble]

theorem transformPoint_inside {p : P.Double × P.Double} {a b c : Vertex P.Double} (at_p : blob.point ops = some p)
    (inside : locate p.1 p.2 = .inside a b c) :
    (transformPoint ops locate blob).bind (·.point ops) = some (interpolate ops a b c p.1 p.2) := by
  obtain ⟨x, xRead, rest⟩ := Option.bind_eq_some_iff.mp at_p
  obtain ⟨y, yRead, rest⟩ := Option.bind_eq_some_iff.mp rest
  cases rest
  unfold transformPoint
  simp only [xRead, yRead, inside, Option.bind_eq_bind, Option.bind_some]
  exact point_put ops _ _ _

theorem onVertex_point {v : Vertex P.Double} (done : onVertex blob v = some out) : out.point ops = some v.screen := by
  obtain ⟨id, -, done⟩ := Option.bind_eq_some_iff.mp done
  obtain ⟨implements, -, done⟩ := Option.bind_eq_some_iff.mp done
  cases done
  exact point_put ops _ _ _

end Paths

section Exact

variable {K : Type} [Field K] [LinearOrder K] (sqrt : K → K) (toInt : K → Int) (pi : K)

/-- Arithmetic that does not round. -/
def exact : Doubles K where
  add := (· + ·)
  sub := (· - ·)
  mul := (· * ·)
  div := (· / ·)
  sqrt := sqrt
  lt a b := decide (a < b)
  ofInt n := n
  toInt := toInt
  pi := pi

variable {sqrt toInt pi} {a b c u v : Vertex K}

theorem entireArea_exact : entireArea (exact sqrt toInt pi) a b c =
    Barycentric.area (surfaces a b c 0) (surfaces a b c 1) (surfaces a b c 2) := rfl

theorem weights_exact (x y : K) : weights (exact sqrt toInt pi) a b c x y =
    (Barycentric.coordinates (surfaces a b c) (x, y) 0, Barycentric.coordinates (surfaces a b c) (x, y) 1,
      Barycentric.coordinates (surfaces a b c) (x, y) 2) := by
  have one : (exact sqrt toInt pi).ofInt 1 = 1 := Int.cast_one
  simp only [weights, one]
  rfl

theorem interpolate_exact (x y : K) : interpolate (exact sqrt toInt pi) a b c x y =
    Barycentric.transform (surfaces a b c) (screens a b c) (x, y) := by
  rw [interpolate_eq, weights_exact, Barycentric.transform, Fin.sum_univ_three]
  rfl

theorem interpolate_corner (flat : entireArea (exact sqrt toInt pi) a b c ≠ 0) (member : v ∈ [a, b, c]) :
    interpolate (exact sqrt toInt pi) a b c v.x v.y = v.screen := by
  rw [entireArea_exact] at flat
  obtain ⟨i, surface, screen⟩ := exists_corner member
  rw [interpolate_exact, ← screen, show (v.x, v.y) = surfaces a b c i from surface.symm]
  exact Barycentric.transform_corner flat i

/-- On an edge only its two ends count. -/
theorem interpolate_edge (flat : entireArea (exact sqrt toInt pi) a b c ≠ 0) (first : u ∈ [a, b, c]) (second : v ∈ [a, b, c])
    {s x y : K} (on : (x, y) = (1 - s) • u.surface + s • v.surface) :
    interpolate (exact sqrt toInt pi) a b c x y = (1 - s) • u.screen + s • v.screen := by
  rw [entireArea_exact] at flat
  obtain ⟨i, surface, screen⟩ := exists_corner first
  obtain ⟨j, surface', screen'⟩ := exists_corner second
  rw [interpolate_exact, on, ← surface, ← surface', ← screen, ← screen']
  exact Barycentric.transform_edge flat i j s

theorem interpolate_affine (flat : entireArea (exact sqrt toInt pi) a b c ≠ 0) {T : K × K →ᵃ[K] K × K}
    (images : ∀ v ∈ [a, b, c], v.screen = T v.surface) (x y : K) : interpolate (exact sqrt toInt pi) a b c x y = T (x, y) := by
  rw [entireArea_exact] at flat
  have moved : screens a b c = fun i => T (surfaces a b c i) := by
    funext i
    fin_cases i
    · exact images a (by simp)
    · exact images b (by simp)
    · exact images c (by simp)
  rw [interpolate_exact, moved]
  exact Barycentric.transform_affine flat T (x, y)

theorem weights_weigh (flat : entireArea (exact sqrt toInt pi) a b c ≠ 0) {x y alpha beta gamma : K}
    (computed : weights (exact sqrt toInt pi) a b c x y = (alpha, beta, gamma)) :
    alpha + beta + gamma = 1 ∧ alpha • a.surface + beta • b.surface + gamma • c.surface = (x, y) := by
  rw [entireArea_exact] at flat
  rw [weights_exact] at computed
  obtain ⟨rfl, rfl, rfl⟩ := computed
  have weighs := Barycentric.coordinates_weigh flat (x, y)
  exact ⟨(Fin.sum_univ_three _).symm.trans weighs.sum, (Fin.sum_univ_three _).symm.trans weighs.point⟩

theorem weights_mem [IsStrictOrderedRing K] (flat : entireArea (exact sqrt toInt pi) a b c ≠ 0) {x y alpha beta gamma : K}
    (computed : weights (exact sqrt toInt pi) a b c x y = (alpha, beta, gamma))
    (inside : (x, y) ∈ convexHull K {a.surface, b.surface, c.surface}) :
    alpha ∈ Set.Icc 0 1 ∧ beta ∈ Set.Icc 0 1 ∧ gamma ∈ Set.Icc 0 1 := by
  have corners : Set.range (surfaces a b c) = {a.surface, b.surface, c.surface} := by
    rw [surfaces, Matrix.range_cons, Matrix.range_cons_cons_empty, Set.singleton_union]
  rw [← corners] at inside
  rw [entireArea_exact] at flat
  rw [weights_exact] at computed
  obtain ⟨rfl, rfl, rfl⟩ := computed
  have bounds (i : Fin 3) := Set.mem_Icc.mpr
    ⟨Barycentric.coordinates_nonneg flat inside i, Barycentric.coordinates_le_one flat inside i⟩
  exact ⟨bounds 0, bounds 1, bounds 2⟩

end Exact

/-- On the points of a triangle that is not flat, `transformPoints` continues the screen points of the corners. -/
theorem transform_continues [Field P.Double] [LinearOrder P.Double] [IsStrictOrderedRing P.Double] {sqrt : P.Double → P.Double}
    {toInt : P.Double → Int} {pi : P.Double} {a b c : Vertex P.Double} (flat : entireArea (exact sqrt toInt pi) a b c ≠ 0) :
    (∀ x y alpha beta gamma : P.Double, weights (exact sqrt toInt pi) a b c x y = (alpha, beta, gamma) →
      alpha + beta + gamma = 1 ∧ alpha • a.surface + beta • b.surface + gamma • c.surface = (x, y) ∧
      interpolate (exact sqrt toInt pi) a b c x y = alpha • a.screen + beta • b.screen + gamma • c.screen ∧
      ((x, y) ∈ convexHull P.Double {a.surface, b.surface, c.surface} →
        alpha ∈ Set.Icc 0 1 ∧ beta ∈ Set.Icc 0 1 ∧ gamma ∈ Set.Icc 0 1)) ∧
    (∀ locate (blob : Container P) p, blob.point (exact sqrt toInt pi) = some p → locate p.1 p.2 = .inside a b c →
      (transformPoint (exact sqrt toInt pi) locate blob).bind (·.point (exact sqrt toInt pi)) =
        some (interpolate (exact sqrt toInt pi) a b c p.1 p.2)) ∧
    (∀ T : P.Double × P.Double →ᵃ[P.Double] P.Double × P.Double, (∀ v ∈ [a, b, c], v.screen = T v.surface) →
      ∀ x y, interpolate (exact sqrt toInt pi) a b c x y = T (x, y)) ∧
    (∀ v ∈ [a, b, c], interpolate (exact sqrt toInt pi) a b c v.x v.y = v.screen ∧
      ∀ blob out : Container P, onVertex blob v = some out → out.point (exact sqrt toInt pi) = some v.screen) ∧
    ∀ u ∈ [a, b, c], ∀ v ∈ [a, b, c], ∀ s x y : P.Double, (x, y) = (1 - s) • u.surface + s • v.surface →
      interpolate (exact sqrt toInt pi) a b c x y = (1 - s) • u.screen + s • v.screen ∧
      ∀ a' b' c', entireArea (exact sqrt toInt pi) a' b' c' ≠ 0 → u ∈ [a', b', c'] → v ∈ [a', b', c'] →
        interpolate (exact sqrt toInt pi) a' b' c' x y = interpolate (exact sqrt toInt pi) a b c x y := by
  refine ⟨fun x y alpha beta gamma computed => ?_, fun locate blob p at_p inside => transformPoint_inside _ at_p inside,
    fun T images => interpolate_affine flat images, fun v member => ⟨interpolate_corner flat member, ?_⟩,
    fun u first v second s x y on => ?_⟩
  · obtain ⟨total, point⟩ := weights_weigh flat computed
    refine ⟨total, point, ?_, weights_mem flat computed⟩
    rw [interpolate_eq, computed]
    rfl
  · exact fun blob out done => onVertex_point _ done
  · have here := interpolate_edge flat first second on
    exact ⟨here, fun a' b' c' flat' first' second' => (interpolate_edge flat' first' second' on).trans here.symm⟩

/-- Doubles that are fractions and show their whole part. -/
def fractions : Platform where
  Double := Rat
  atof s := Text.readInt s
  showF x := Text.showInt x.floor
  showG x := Text.showInt x.floor
  grid _ _ := []
  loads _ := false
  truncate x := Int32.ofInt x.floor
  showF_noSpace x c member := (Preset.Platform.whole.showG_plain x.floor c member).1
  showG_ne_nil x := Preset.Platform.whole.showG_ne_nil x.floor
  showG_plain x := Preset.Platform.whole.showG_plain x.floor
  showG_atof x := by rw [Text.readInt_showInt, Rat.floor_intCast]

instance : Field fractions.Double := inferInstanceAs (Field Rat)

instance : LinearOrder fractions.Double := inferInstanceAs (LinearOrder Rat)

instance : IsStrictOrderedRing fractions.Double := inferInstanceAs (IsStrictOrderedRing Rat)

/-- A right triangle, and a screen that is twice as large. -/
theorem doubled_continues :
    let a : Vertex fractions.Double := { x := 0, y := 0, screenX := 0, screenY := 0 }
    let b : Vertex fractions.Double := { x := 1, y := 0, screenX := 2, screenY := 0 }
    let c : Vertex fractions.Double := { x := 0, y := 1, screenX := 0, screenY := 2 }
    interpolate (exact id (fun _ => 0) 3) a b c b.x b.y = b.screen := by
  intro a b c
  have flat : entireArea (exact id (fun _ => 0) 3) a b c ≠ 0 := by
    show ((0 - 1) * (0 - 1) - (0 - 0) * (0 - 0) : fractions.Double) ≠ 0
    norm_num
  exact ((transform_continues flat).2.2.2.1 b (by simp)).1

end Blobs

end Movid
