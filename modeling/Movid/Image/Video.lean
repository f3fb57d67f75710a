import Movid.Utils

/-!
# The frames of a video

`update` pushes a frame, counts down and starts again at the first frame when the count is used up. The counter is tested before it is
taken down, so a cycle has one update more than the video has frames.
-/

namespace Movid.Image

/-- What OpenCV keeps of an open file and does with it. -/
structure Highgui (Capture Image : Type) where
  cvCaptureFromAVI : Str → Option Capture
  cvQueryFrame : Capture → Option Image × Capture
  /-- `cvSetCaptureProperty` of `CV_CAP_PROP_POS_FRAMES`. -/
  setPosFrames : Capture → Int → Capture
  /-- `CV_CAP_PROP_FRAME_COUNT` as an `int`. -/
  frameCount : Capture → Int

structure Video (Capture : Type) where
  filename : Str
  loop : Bool
  video : Option Capture
  numframes : Int

namespace Video

variable {Capture Image : Type} (cv : Highgui Capture Image)

/-- A file that cannot be opened has no frames. -/
def frameCount (video : Option Capture) : Int := (video.map cv.frameCount).getD 0

/-- `none` is the assertion that the video is not open. -/
def start (s : Video Capture) : Option (Video Capture) :=
  match s.video with
  | some _ => none
  | none =>
    let video := cv.cvCaptureFromAVI s.filename
    some { s with video, numframes := frameCount cv video }

def stop (s : Video Capture) : Video Capture := { s with video := none }

/-- OpenCV gives NULL for a capture that is NULL. -/
def queryFrame (s : Video Capture) : Option Image × Video Capture :=
  match s.video with
  | none => (none, s)
  | some video => ((cv.cvQueryFrame video).1, { s with video := some (cv.cvQueryFrame video).2 })

/-- What `update` pushes, and the state after it. -/
def update (s : Video Capture) : Option Image × Video Capture :=
  let (image, s) := s.queryFrame cv
  let more := s.numframes > 0
  let s := { s with numframes := s.numframes - 1 }
  if more then (image, s)
  else if s.loop then
    let video := s.video.map (cv.setPosFrames · 0)
    (image, { s with video, numframes := frameCount cv video })
  else (image, s)

/-- The state after `k` updates. -/
def after (s : Video Capture) : Nat → Video Capture
  | 0 => s
  | k + 1 => ((s.after k).update cv).2

/-- What update number `k` pushes. -/
def pushed (s : Video Capture) (k : Nat) : Option Image := ((s.after cv k).update cv).1

variable {cv}

/-- The capture gives `N` frames in order and NULL after the last one; `stands c p` says that frame `p` is next. -/
structure Plays (cv : Highgui Capture Image) (N : Nat) (frame : Nat → Image) (stands : Capture → Nat → Prop) : Prop where
  gives : ∀ c p, stands c p → p < N → (cv.cvQueryFrame c).1 = some (frame p) ∧ stands (cv.cvQueryFrame c).2 (p + 1)
  ends : ∀ c, stands c N → (cv.cvQueryFrame c).1 = none ∧ stands (cv.cvQueryFrame c).2 N
  rewinds : ∀ c p, stands c p → stands (cv.setPosFrames c 0) 0
  counts : ∀ c p, stands c p → cv.frameCount c = N

/-- A looping video at frame `p` of a cycle. -/
structure At (stands : Capture → Nat → Prop) (N p : Nat) (s : Video Capture) : Prop where
  loops : s.loop = true
  stands : ∃ c, s.video = some c ∧ stands c p
  left : s.numframes = N - p

variable {N : Nat} {frame : Nat → Image} {stands : Capture → Nat → Prop} {s : Video Capture} {p : Nat}

theorem At.update (plays : Plays cv N frame stands) (here : At stands N p s) (inside : p < N) :
    (s.update cv).1 = some (frame p) ∧ At stands N (p + 1) (s.update cv).2 := by
  obtain ⟨loops, ⟨c, open_, standing⟩, left⟩ := here
  obtain ⟨image, next⟩ := plays.gives c p standing inside
  unfold Video.update queryFrame
  simp only [open_]
  rw [if_pos (by omega)]
  exact ⟨image, loops, ⟨_, rfl, next⟩, by simp only; omega⟩

/-- The update between two cycles finds no frame, and only then the video is rewound. -/
theorem At.wrap (plays : Plays cv N frame stands) (here : At stands N N s) :
    (s.update cv).1 = none ∧ At stands N 0 (s.update cv).2 := by
  obtain ⟨loops, ⟨c, open_, standing⟩, left⟩ := here
  obtain ⟨image, next⟩ := plays.ends c standing
  have again := plays.rewinds _ _ next
  unfold Video.update queryFrame
  simp only [open_]
  rw [if_neg (by omega), if_pos loops]
  refine ⟨image, loops, ⟨_, rfl, again⟩, ?_⟩
  simp [Video.frameCount, plays.counts _ _ again]

theorem At.after (plays : Plays cv N frame stands) (here : At stands N 0 s) (k : Nat) : At stands N (k % (N + 1)) (s.after cv k) := by
  induction k with
  | zero =>
    rw [Nat.zero_mod]
    exact here
  | succ k ih =>
    rw [← Nat.mod_add_mod k (N + 1) 1]
    rcases Nat.lt_or_eq_of_le (Nat.le_of_lt_succ (Nat.mod_lt k (Nat.succ_pos N))) with inside | last
    · rw [Nat.mod_eq_of_lt (Nat.succ_lt_succ inside)]
      exact (ih.update plays inside).2
    · rw [last] at ih ⊢
      rw [Nat.mod_self]
      exact (ih.wrap plays).2

/-- A cycle is the video and one NULL. -/
theorem At.pushed (plays : Plays cv N frame stands) (here : At stands N 0 s) (k : Nat) :
    s.pushed cv k = if k % (N + 1) < N then some (frame (k % (N + 1))) else none := by
  have now := here.after plays k
  split
  · rename_i inside
    exact (now.update plays inside).1
  · rename_i beyond
    have last : k % (N + 1) = N := by
      have := Nat.mod_lt k (Nat.add_one_pos N)
      omega
    rw [last] at now
    exact (now.wrap plays).1

theorem At.start (plays : Plays cv N frame stands) (loops : s.loop = true) {c : Capture} (opens : cv.cvCaptureFromAVI s.filename = some c)
    (first : stands c 0) {t : Video Capture} (started : s.start cv = some t) : At stands N 0 t := by
  unfold Video.start at started
  split at started
  · cases started
  · cases started
    refine ⟨loops, ⟨c, opens, first⟩, ?_⟩
    simp [Video.frameCount, opens, plays.counts c 0 first]

/-- The first cycle is the video without gaps, and no run that is longer is. -/
theorem delivers_cyclically_iff (plays : Plays cv N frame stands) (loops : s.loop = true) {c : Capture}
    (opens : cv.cvCaptureFromAVI s.filename = some c) (first : stands c 0) {t : Video Capture} (started : s.start cv = some t) (n : Nat) :
    ((∀ k < n, t.pushed cv k = some (frame (k % N))) ↔ n ≤ N) ∧ ((∀ k < n, t.pushed cv k ≠ none) ↔ n ≤ N) := by
  have pushes := (At.start plays loops opens first started).pushed plays
  have gap : t.pushed cv N = none := by
    rw [pushes, Nat.mod_eq_of_lt (Nat.lt_succ_self N), if_neg (Nat.lt_irrefl N)]
  have cycle (short : n ≤ N) (k : Nat) (before : k < n) : t.pushed cv k = some (frame (k % N)) := by
    have inside : k < N := before.trans_le short
    rw [pushes, Nat.mod_eq_of_lt (inside.trans (Nat.lt_succ_self N)), if_pos inside, Nat.mod_eq_of_lt inside]
  constructor
  · refine ⟨fun always => ?_, cycle⟩
    by_contra long
    have last := always N (Nat.lt_of_not_le long)
    rw [gap] at last
    cases last
  · refine ⟨fun always => ?_, fun short k before => ?_⟩
    · by_contra long
      exact always N (Nat.lt_of_not_le long) gap
    · rw [cycle short k before]
      exact Option.some_ne_none _

/-- A video of `N` frames, which are their numbers. The capture is the number of the next one. -/
def reel (N : Nat) : Highgui Nat Nat where
  cvCaptureFromAVI _ := some 0
  cvQueryFrame p := if p < N then (some p, p + 1) else (none, p)
  setPosFrames _ p := p.toNat
  frameCount _ := N

theorem reel_plays (N : Nat) : Plays (reel N) N id (· = ·) where
  gives c p standing inside := by
    subst standing
    simp [reel, inside]
  ends c standing := by
    subst standing
    simp [reel]
  rewinds _ _ _ := rfl
  counts _ _ _ := rfl

def playing (N : Nat) : Video Nat := { filename := "clip.avi".toList, loop := true, video := some 0, numframes := N }

theorem two_frames_delivered : (playing 2).pushed (reel 2) 0 = some 0 ∧ (playing 2).pushed (reel 2) 1 = some 1 := by
  have cycle := (delivers_cyclically_iff (s := { playing 2 with video := none }) (reel_plays 2) rfl rfl rfl rfl 2).1.mpr (Nat.le_refl 2)
  exact ⟨cycle 0 (by decide), cycle 1 (by decide)⟩

/-- The third update of a video of two frames pushes NULL. -/
theorem null_between_cycles : ¬ ∀ N ≥ 1, ∀ k, (playing N).pushed (reel N) k = some (k % N) := by
  intro always
  exact absurd (always 2 (by decide) 2) (by decide)

end Video

end Movid.Image
