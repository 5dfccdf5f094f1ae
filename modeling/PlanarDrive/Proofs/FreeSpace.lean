import PlanarDrive.Proofs.RayHit
import PlanarDrive.Proofs.SensorRange

/-!
# The sensor reads free space

In exact numbers a reading ends where the beam first touches an obstacle, or at the range of
the sensor: no obstacle covers a point of the beam before it. One obstacle after the other can
only shorten what the ones before it have left free.
-/

namespace PlanarDrive

variable {K : Type} [Field K] [LinearOrder K]

namespace Sensor

/-- What a ray may be told about some obstacles, when nothing is known beyond a range. -/
structure Sound (obstacles : List (Obstacle K)) (ray : Ray K) (range reading : K) : Prop where
  nonneg : 0 ≤ reading
  le_range : reading ≤ range
  free : ∀ s, 0 ≤ s → s < reading → ∀ o ∈ obstacles, ¬ o.Covers (ray.point s)
  surface : reading < range → ∃ o ∈ obstacles, o.OnSurface (ray.point reading)
  pos : 0 < range → 0 < reading

theorem Sound.nil {ray : Ray K} {range : K} (h : 0 ≤ range) : Sound [] ray range range :=
  ⟨h, le_rfl, by simp, fun h => absurd h (lt_irrefl _), id⟩

/-- What is known of two lists of obstacles, the first reading being the range of the second. -/
theorem Sound.append {xs ys : List (Obstacle K)} {ray : Ray K} {range reading last : K}
    (hx : Sound xs ray range reading) (hy : Sound ys ray reading last) :
    Sound (xs ++ ys) ray range last := by
  refine ⟨hy.nonneg, hy.le_range.trans hx.le_range, fun s h0 hs o ho => ?_, fun hlt => ?_,
    fun h => hy.pos (hx.pos h)⟩
  · rcases List.mem_append.1 ho with ho | ho
    · exact hx.free s h0 (hs.trans_le hy.le_range) o ho
    · exact hy.free s h0 hs o ho
  · rcases hy.le_range.lt_or_eq with hshort | rfl
    · obtain ⟨o, ho, hon⟩ := hy.surface hshort
      exact ⟨o, List.mem_append_right xs ho, hon⟩
    · obtain ⟨o, ho, hon⟩ := hx.surface hlt
      exact ⟨o, List.mem_append_left ys ho, hon⟩

variable [Exact K]

theorem nearer_eq_or (distance : K) (hit : Option K) :
    (nearer distance hit = distance ∧ ∀ t ∈ hit, distance ≤ t) ∨
      ∃ t ∈ hit, nearer distance hit = t ∧ t < distance := by
  cases hit with
  | none => exact .inl ⟨rfl, by simp⟩
  | some t =>
    rcases lt_or_ge t distance with h | h
    · exact .inr ⟨t, rfl, if_pos h, h⟩
    · refine .inl ⟨if_neg h.not_gt, fun u hu => ?_⟩
      cases hu
      exact h

theorem sound_nearer {o : Obstacle K} {ray : Ray K} {range : K} {hit : Option K}
    (hrange : 0 ≤ range) (h : ray.FirstHit o hit) :
    Sound [o] ray range (nearer range hit) := by
  rcases nearer_eq_or range hit with ⟨heq, hbeyond⟩ | ⟨t, ht, heq, hlt⟩
  · rw [heq]
    refine ⟨hrange, le_rfl, fun s h0 hs => ?_, fun h => absurd h (lt_irrefl _), id⟩
    rw [List.forall_mem_singleton]
    exact h.free s h0 fun t ht => hs.trans_le (hbeyond t ht)
  · rw [heq]
    have hpos := h.pos t ht
    refine ⟨hpos.le, hlt.le, fun s h0 hs => ?_, fun _ => ⟨o, by simp, h.surface t ht⟩,
      fun _ => hpos⟩
    rw [List.forall_mem_singleton]
    refine h.free s h0 fun u hu => ?_
    rwa [Option.mem_unique hu ht]

variable [IsStrictOrderedRing K]

/-- A nearest hit in front of the start and within the range is read as it is. -/
theorem beam_of_nearestHit {obstacles : List (Obstacle K)} {x y angle range nearest : K}
    (h : nearestHit ⟨x, y, Exact.cos angle, Exact.sin angle⟩ obstacles range = .ok nearest)
    (h0 : 0 ≤ nearest) (hle : nearest ≤ range) :
    beam obstacles x y angle range = .ok nearest := by
  have hrange : (0.0 : K) ≤ range := by
    rw [Exact.scalar_zero]
    exact h0.trans hle
  have hcut : Scalar.greatest (0.0 : K) (Scalar.least nearest range) = nearest := by
    rw [Exact.scalar_least, Exact.scalar_greatest, min_eq_left hle, Exact.scalar_zero,
      max_eq_right h0]
  refine (beam_eq hrange rfl).trans ?_
  change (nearestHit ⟨x, y, Exact.cos angle, Exact.sin angle⟩ obstacles range).map _ = _
  rw [h]
  exact congrArg Except.ok hcut

variable [Exact.HasRoots K]

/-- The smallest hit of a ray from a free point is sound about all obstacles. -/
theorem nearestHit_sound {ray : Ray K} (hr : ray.IsClear) {obstacles : List (Obstacle K)}
    (hshape : ∀ o ∈ obstacles, o.IsShape) (hout : ∀ o ∈ obstacles, ¬ o.Covers (ray.point 0))
    {range : K} (hrange : 0 ≤ range) :
    ∃ reading, nearestHit ray obstacles range = .ok reading ∧
      Sound obstacles ray range reading := by
  induction obstacles generalizing range with
  | nil => exact ⟨range, rfl, .nil hrange⟩
  | cons o rest ih =>
    rw [List.forall_mem_cons] at hshape hout
    obtain ⟨hit, hhit, hfirst⟩ := ray.hit_spec hr hshape.1 hout.1
    have hnear := sound_nearer hrange hfirst
    obtain ⟨reading, hreading, hrest⟩ := ih hshape.2 hout.2 hnear.nonneg
    refine ⟨reading, ?_, hnear.append hrest⟩
    rw [nearestHit, hhit]
    exact hreading

/-- A beam from a free point has a sound reading. -/
theorem beam_sound {obstacles : List (Obstacle K)} {x y angle range : K}
    (hr : Ray.IsClear ⟨x, y, Exact.cos angle, Exact.sin angle⟩)
    (hshape : ∀ o ∈ obstacles, o.IsShape) (hout : ∀ o ∈ obstacles, ¬ o.Covers (x, y))
    (hrange : 0 ≤ range) :
    ∃ reading, beam obstacles x y angle range = .ok reading ∧
      Sound obstacles ⟨x, y, Exact.cos angle, Exact.sin angle⟩ range reading := by
  obtain ⟨reading, hreading, hsound⟩ :=
    nearestHit_sound hr hshape (by simpa using hout) hrange
  exact ⟨reading, beam_of_nearestHit hreading hsound.nonneg hsound.le_range, hsound⟩

end Sensor

variable [Exact K]

def Pose.ahead (pose : Pose K) : Ray K :=
  ⟨pose.x, pose.y, Exact.cos pose.theta, Exact.sin pose.theta⟩

/-- Along the x axis no component of the direction is small. -/
theorem Pose.isClear_ahead [IsStrictOrderedRing K] {pose : Pose K}
    (hcos : Exact.cos pose.theta = 1) (hsin : Exact.sin pose.theta = 0) : pose.ahead.IsClear := by
  refine ⟨?_, .inr ?_, .inl hsin⟩
  · show Exact.cos pose.theta ^ 2 + Exact.sin pose.theta ^ 2 = 1
    rw [hcos, hsin]
    norm_num
  · show 1e-8 ≤ |Exact.cos pose.theta|
    rw [hcos]
    norm_num

/-- From a pose that no obstacle covers, the reading straight ahead exists and lies within the
range. No obstacle covers a point of the beam before it, and a reading short of the range ends
on the surface of an obstacle. -/
theorem front_reads_free_space [IsStrictOrderedRing K] [Exact.HasRoots K]
    {obstacles : List (Obstacle K)} {pose : Pose K} {range : K}
    (hclear : pose.ahead.IsClear) (hshape : ∀ o ∈ obstacles, o.IsShape)
    (hout : ∀ o ∈ obstacles, ¬ o.Covers (pose.x, pose.y)) (hrange : 0 ≤ range) :
    ∃ reading, Sensor.front obstacles pose range = .ok reading ∧
      0 ≤ reading ∧ reading ≤ range ∧
      (∀ s, 0 ≤ s → s < reading → ∀ o ∈ obstacles, ¬ o.Covers (pose.ahead.point s)) ∧
      (reading < range → ∃ o ∈ obstacles, o.OnSurface (pose.ahead.point reading)) ∧
      (0 < range → 0 < reading) := by
  obtain ⟨reading, hreading, hsound⟩ := Sensor.beam_sound hclear hshape hout hrange
  exact ⟨reading, hreading, hsound.nonneg, hsound.le_range, hsound.free, hsound.surface,
    hsound.pos⟩

/-- A disc ahead, a wall to the left and a post behind. -/
def yard : List (Obstacle ℝ) :=
  [.circle 3.0 0 1, .rectangle 0 2.0 2.0 1, .circle (-2.0) 0 0]

theorem front_reads_free_space_yard : Sensor.front yard ⟨0, 0, 0⟩ 5 = .ok 2 := by
  have hcos : Exact.cos (0 : ℝ) = 1 := Real.cos_zero
  have hsin : Exact.sin (0 : ℝ) = 0 := Real.sin_zero
  have hclear : (⟨0, 0, 0⟩ : Pose ℝ).ahead.IsClear := Pose.isClear_ahead hcos hsin
  have hshape : ∀ o ∈ yard, o.IsShape := by norm_num [yard, Obstacle.IsShape]
  have hout : ∀ o ∈ yard, ¬ o.Covers (0, 0) := by norm_num [yard, Obstacle.Covers]
  have hrange : (0 : ℝ) ≤ 5 := by norm_num
  obtain ⟨reading, hreading, h0, -, hfree, hsurface, -⟩ :=
    front_reads_free_space hclear hshape hout hrange
  have hpoint (s : ℝ) : (⟨0, 0, 0⟩ : Pose ℝ).ahead.point s = (s, 0) := by
    simp [Pose.ahead, Ray.point, hcos, hsin]
  simp only [hpoint] at hfree hsurface
  have hle : reading ≤ 2 := by
    by_contra! hlt
    exact hfree 2 (by norm_num) hlt (.circle 3.0 0 1) (by simp [yard])
      (by norm_num [Obstacle.Covers])
  have hdisc : (reading - 3) ^ 2 = 1 := by
    obtain ⟨o, ho, hon⟩ := hsurface (by linarith)
    simp only [yard, List.mem_cons, List.not_mem_nil, or_false] at ho
    rcases ho with rfl | rfl | rfl
    · rw [Obstacle.OnSurface] at hon
      norm_num at hon ⊢
      exact hon
    · norm_num [Obstacle.OnSurface] at hon
    · norm_num [Obstacle.OnSurface] at hon
      linarith
  rw [hreading, show reading = 2 by nlinarith]

end PlanarDrive
