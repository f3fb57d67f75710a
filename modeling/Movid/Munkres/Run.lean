import Mathlib.Tactic.Linarith
import Movid.Munkres.Start

/-!
# From the first call of `step2b` to the last

Between two visits of `step2a` rows are only covered, three calls for each at most, and each visit brings one more star. So the calls can be
counted down, and what they end with is as many stars as there can be, with prices that show it to be the cheapest choice.
-/

namespace Movid.Munkres

open Tracker (dimFinger)
open Loop (Turn)

variable {nrows ncols : Nat} {A : Nat → Nat → Int} {s t : State nrows ncols}

/-- Prices, and no more taken from a column than the largest distance. -/
def Priced (A : Nat → Nat → Int) (s : State nrows ncols) : Prop :=
  ∃ u v total, Prices A s u v total ∧ ∀ M, 0 ≤ M → (∀ r < nrows, ∀ c < ncols, A r c ≤ M) → total ≤ M

/-- What the calls of the stars still to come may need. -/
def ahead (s : State nrows ncols) : Nat := (dmin nrows ncols - s.count) * (3 * nrows + 6)

/-- What each call finds, and a number that the next call finds smaller. -/
inductive InRun (A : Nat → Nat → Int) : Nat → Call × State nrows ncols → Prop
  | step2a {s : State nrows ncols} : Sound s → Priced A s → Fresh s → InRun A (ahead s + 3 * nrows + 5) (.step2a, s)
  | step2b {s : State nrows ncols} : Sound s → Priced A s → Covered s [] → InRun A (ahead s + 3 * nrows + 4) (.step2b, s)
  | step3 {s : State nrows ncols} {rows : List Nat} : Sound s → Priced A s → Covered s rows → s.count < dmin nrows ncols →
      InRun A (ahead s + 3 * (nrows - rows.length) + 3) (.step3, s)
  | step3Open {s : State nrows ncols} {rows : List Nat} : Sound s → Priced A s → Covered s rows → s.count < dmin nrows ncols →
      (∃ r c, OpenZero s r c) → InRun A (ahead s + 3 * (nrows - rows.length) + 1) (.step3, s)
  | step4 {s : State nrows ncols} {rows : List Nat} {row col : Nat} : Sound s → Priced A s → Starless s rows row col →
      s.count < dmin nrows ncols → InRun A (ahead s) (.step4 row col, s)
  | step5 {s : State nrows ncols} {rows : List Nat} : Sound s → Priced A s → Covered s rows → s.count < dmin nrows ncols →
      InRun A (ahead s + 3 * (nrows - rows.length) + 2) (.step5, s)

theorem Covered.length_le {rows : List Nat} (covered : Covered s rows) : rows.length ≤ nrows := by
  have sub : rows ⊆ List.range nrows := fun r member => List.mem_range.mpr (covered.inside r member)
  have le := (List.subperm_of_subset covered.chain.nodup sub).length_le
  rwa [List.length_range] at le

/-! ### States with the same distances and stars -/

theorem SameStars.sound (same : SameStars s t) (sound : Sound s) : Sound t := by
  obtain ⟨mdist, mstar⟩ := same
  have star : t.Star = s.Star := by rw [State.Star, State.Star, mstar]
  exact ⟨star ▸ sound.stars, fun r c starred => mdist ▸ sound.zeros r c (star ▸ starred), mdist ▸ sound.nonneg⟩

theorem SameStars.priced (same : SameStars s t) (priced : Priced A s) : Priced A t := by
  obtain ⟨mdist, mstar⟩ := same
  obtain ⟨u, v, total, prices, reach⟩ := priced
  have star : t.Star = s.Star := by rw [State.Star, State.Star, mstar]
  exact ⟨u, v, total, prices.mono mdist (fun _ starred => star ▸ starred) (fun _ starred => star ▸ starred), reach⟩

theorem SameStars.count (same : SameStars s t) : t.count = s.count := by
  unfold State.count
  rw [same.2]

theorem SameStars.ahead (same : SameStars s t) : ahead t = ahead s := by
  unfold Munkres.ahead
  rw [same.count]

/-! ### The calls -/

/-- While a star is missing, some cell is not hidden. -/
theorem Covered.bare {rows : List Nat} (covered : Covered s rows) (sound : Sound s) (more : s.count < dmin nrows ncols) :
    ∃ r c, Bare s r c := by
  obtain ⟨r, rBound, row⟩ := free_row sound.stars more
  obtain ⟨c, cBound, col⟩ := free_col sound.stars more
  refine ⟨r, c, rBound, cBound, ?_, ?_⟩
  · refine Bool.eq_false_iff.mpr fun bit => ?_
    obtain ⟨c', starred⟩ := covered.chain.starred ((covered.rowBits r rBound).mp bit)
    exact row c' starred
  · refine Bool.eq_false_iff.mpr fun bit => ?_
    obtain ⟨r', starred, _⟩ := (covered.colBits c cBound).mp bit
    exact col r' starred

theorem step3_turn (rowsFit : nrows ≤ dimFinger) (colsFit : ncols ≤ dimFinger) {rows : List Nat} {y : Call × State nrows ncols}
    (sound : Sound s) (priced : Priced A s) (covered : Covered s rows) (more : s.count < dmin nrows ncols)
    (calls : turn (.step3, s) = .again y) :
    ∃ m, InRun A m y ∧ m < ahead s + 3 * (nrows - rows.length) + 3 ∧
      ((∃ r c, OpenZero s r c) → m < ahead s + 3 * (nrows - rows.length) + 1) := by
  have ends := step3_spec rowsFit colsFit (fun col (member : col ∈ List.range ncols) => List.mem_range.mp member) sound.stars covered false
  unfold turn at calls
  dsimp only at calls
  generalize step3 (List.range ncols) s false = pass at ends calls
  cases ends with
  | starless t newer row col same starless =>
    cases calls
    refine ⟨_, .step4 (same.sound sound) (same.priced priced) starless (same.count ▸ more), ?_, fun _ => ?_⟩ <;> rw [same.ahead] <;> omega
  | quiet none =>
    cases calls
    refine ⟨_, .step5 sound priced covered more, by omega, fun ⟨r, c, zero⟩ => ?_⟩
    exact absurd zero (none c (List.mem_range.mpr zero.2.1) r)
  | found t newer same later some' =>
    cases calls
    have longer := later.length_le
    rw [List.length_append] at longer
    have grown := List.length_pos_of_ne_nil some'
    refine ⟨_, .step3 (same.sound sound) (same.priced priced) later (same.count ▸ more), ?_, fun _ => ?_⟩ <;>
      rw [same.ahead, List.length_append] <;> omega

theorem step4_turn (rowsFit : nrows ≤ dimFinger) (colsFit : ncols ≤ dimFinger) {rows : List Nat} {row col : Nat} (sound : Sound s)
    (priced : Priced A s) (starless : Starless s rows row col) (more : s.count < dmin nrows ncols) :
    ∃ t, turn (.step4 row col, s) = .again (.step2a, t) ∧ InRun A (ahead t + 3 * nrows + 5) (.step2a, t) ∧
      ahead t + 3 * nrows + 5 < ahead s := by
  obtain ⟨t, returns, augmented⟩ := step4_spec rowsFit colsFit sound.stars starless
  obtain ⟨u, v, total, prices, reach⟩ := priced
  have rows : ∀ r, (∃ c, s.Star r c) → ∃ c, t.Star r c := fun r starred => (augmented.starredRows r).mpr (Or.inr starred)
  have cols : ∀ c, (∃ r, s.Star r c) → ∃ r, t.Star r c := fun c ⟨r, starred⟩ => augmented.columnsKept r c starred
  refine ⟨t, by rw [turn, returns], .step2a (augmented.sound starless sound) ⟨u, v, total, prices.mono augmented.mdist rows cols, reach⟩
    (augmented.fresh starless), ?_⟩
  unfold ahead
  have grown := augmented.count sound.stars starless.unstarred
  obtain ⟨d, left⟩ : ∃ d, dmin nrows ncols - s.count = d + 1 := ⟨dmin nrows ncols - s.count - 1, by omega⟩
  have fewer : dmin nrows ncols - t.count = d := by omega
  rw [left, fewer, Nat.succ_mul d]
  omega

theorem step5_turn {rows : List Nat} (sound : Sound s) (priced : Priced A s) (covered : Covered s rows)
    (more : s.count < dmin nrows ncols) :
    ∃ t, turn (.step5, s) = .again (.step3, t) ∧ InRun A (ahead s + 3 * (nrows - rows.length) + 1) (.step3, t) := by
  obtain ⟨t, returns, shifted⟩ := step5_spec (covered.bare sound more)
  obtain ⟨u, v, total, prices, reach⟩ := priced
  have sound' := shifted.sound sound covered
  have more' : t.count < dmin nrows ncols := shifted.count ▸ more
  have prices' := prices.shift sound covered shifted
  have same : ahead t = ahead s := by rw [ahead, ahead, shifted.count]
  refine ⟨t, by rw [turn, returns], ?_⟩
  rw [← same]
  exact .step3Open sound' ⟨_, _, _, prices', fun M _ largest => prices'.total_le sound' more' largest⟩ (shifted.covered covered) more'
    shifted.openZero

theorem inRun_turn (rowsFit : nrows ≤ dimFinger) (colsFit : ncols ≤ dimFinger) (n : Nat) (x y : Call × State nrows ncols)
    (here : InRun A n x) (calls : turn x = .again y) : ∃ m < n, InRun A m y := by
  cases here with
  | @step2a s sound priced fresh =>
    cases calls
    have same : SameStars s (step2a s) := ⟨rfl, rfl⟩
    refine ⟨_, ?_, .step2b (same.sound sound) (same.priced priced) (fresh.step2a colsFit)⟩
    rw [same.ahead]
    omega
  | @step2b s sound priced covered =>
    unfold turn at calls
    dsimp only at calls
    split at calls
    · cases calls
    · rename_i missing
      cases calls
      rw [ncc_eq sound.stars covered] at missing
      have more := Nat.lt_of_le_of_ne (count_le sound.stars) missing
      exact ⟨_, by rw [List.length_nil]; omega, .step3 sound priced covered more⟩
  | step3 sound priced covered more =>
    obtain ⟨m, next, less, _⟩ := step3_turn rowsFit colsFit sound priced covered more calls
    exact ⟨m, less, next⟩
  | step3Open sound priced covered more zero =>
    obtain ⟨m, next, _, less⟩ := step3_turn rowsFit colsFit sound priced covered more calls
    exact ⟨m, less zero, next⟩
  | step4 sound priced starless more =>
    obtain ⟨t, step, next, less⟩ := step4_turn rowsFit colsFit sound priced starless more
    rw [step] at calls
    cases calls
    exact ⟨_, less, next⟩
  | step5 sound priced covered more =>
    obtain ⟨t, step, next⟩ := step5_turn sound priced covered more
    rw [step] at calls
    cases calls
    exact ⟨_, by omega, next⟩

/-- The run ends in `step2b`, and nowhere else. -/
theorem inRun_done (rowsFit : nrows ≤ dimFinger) (colsFit : ncols ≤ dimFinger) (n : Nat) (x : Call × State nrows ncols)
    (r : Option (List Int)) (here : InRun A n x) (returns : turn x = .done r) :
    ∃ s : State nrows ncols, r = some (buildixvector s.mstar nrows ncols) ∧ Sound s ∧ Priced A s ∧ s.count = dmin nrows ncols := by
  cases here with
  | step2a => cases returns
  | @step2b s sound priced covered =>
    unfold turn at returns
    dsimp only at returns
    split at returns
    · rename_i full
      cases returns
      exact ⟨s, rfl, sound, priced, (ncc_eq sound.stars covered).symm.trans full⟩
    · cases returns
  | step3 => exact absurd returns (step3_again _)
  | step3Open => exact absurd returns (step3_again _)
  | step4 sound priced starless more =>
    obtain ⟨t, step, _⟩ := step4_turn rowsFit colsFit sound priced starless more
    rw [step] at returns
    cases returns
  | step5 sound priced covered more =>
    obtain ⟨t, step, _⟩ := step5_turn sound priced covered more
    rw [step] at returns
    cases returns
where
  step3_again (s : State nrows ncols) {r : Option (List Int)} : turn (.step3, s) ≠ .done r := by
    unfold turn
    dsimp only
    split <;> exact nofun

/-- What the first call of `step2b` finds. -/
theorem inRun_start (rowsFit : nrows ≤ dimFinger) (colsFit : ncols ≤ dimFinger) (mdist : Mdist nrows ncols) :
    ∃ n < turns nrows ncols, InRun (prepare mdist).mdist.at n (.step2b, prepare mdist) := by
  obtain ⟨sound, covered, _⟩ := prepare_spec rowsFit colsFit mdist
  refine ⟨_, ?_, .step2b sound ⟨fun _ => 0, fun _ => 0, 0, ?_, fun M positive _ => positive⟩ covered⟩
  · unfold ahead turns
    have le : (dmin nrows ncols - (prepare mdist).count) * (3 * nrows + 6) ≤ dmin nrows ncols * (3 * nrows + 6) :=
      Nat.mul_le_mul_right _ (Nat.sub_le _ _)
    rw [Nat.succ_mul (dmin nrows ncols)]
    omega
  · constructor <;> intros <;> simp

/-- `ixoptimal` returns, with as many stars as there can be and prices for them. -/
theorem ixoptimal_spec (rowsFit : nrows ≤ dimFinger) (colsFit : ncols ≤ dimFinger) (distances : List Int) :
    ∃ s : State nrows ncols, ixoptimal distances nrows ncols = some (buildixvector s.mstar nrows ncols) ∧ Sound s ∧
      Priced (prepare (load distances nrows ncols)).mdist.at s ∧ s.count = dmin nrows ncols := by
  obtain ⟨n, enough, start⟩ := inRun_start rowsFit colsFit (load distances nrows ncols)
  obtain ⟨r, returns, s, rfl, facts⟩ := Loop.run_ranked (inRun_turn rowsFit colsFit) (inRun_done rowsFit colsFit) start enough
  exact ⟨s, by rw [ixoptimal, returns]; rfl, facts⟩

end Movid.Munkres
