import PlanarDrive.Proofs.RayHit

/-!
# The distance that a ray is told

In exact numbers the distance to a box is where the ray enters it, if that is in front of the start,
and otherwise where the ray leaves it. The distance to a circle is the first one in front of the
start at which the ray is on the circle.

Without a hit there is no such distance: the ray is in the box behind its start or nowhere, and on
the circle nowhere in front of the start.
-/

namespace PlanarDrive

variable {K : Type} [Field K] [LinearOrder K]

namespace Box

def Covers (box : Box K) (p : K × K) : Prop :=
  (box.xmin ≤ p.1 ∧ p.1 ≤ box.xmax) ∧ box.ymin ≤ p.2 ∧ p.2 ≤ box.ymax

/-- The points of a box that lie on one of its sides. -/
def OnBoundary (box : Box K) (p : K × K) : Prop :=
  box.Covers p ∧ ((p.1 = box.xmin ∨ p.1 = box.xmax) ∨ p.2 = box.ymin ∨ p.2 = box.ymax)

end Box

namespace Ray

/-- A component of a direction, or zero where it only counts as parallel to the sides. -/
def alignedStep (step : K) : K :=
  if |step| < 1e-8 then 0 else step

def aligned (ray : Ray K) : Ray K :=
  ⟨ray.x, ray.y, alignedStep ray.dx, alignedStep ray.dy⟩

/-- The distances at which a ray is in a box, in front of its start and behind it. -/
def passage (ray : Ray K) (box : Box K) : Set K :=
  {s | box.Covers (ray.aligned.point s)}

theorem alignedStep_eq_zero_or (step : K) :
    alignedStep step = 0 ∨ 1e-8 ≤ |alignedStep step| := by
  unfold alignedStep
  split_ifs with h
  · exact .inl rfl
  · exact .inr (not_lt.1 h)

variable [IsStrictOrderedRing K]

/-- A direction of unit length crosses at least one pair of sides. -/
theorem aligned_ne_zero {ray : Ray K} (hunit : ray.dx ^ 2 + ray.dy ^ 2 = 1) :
    ray.aligned.dx ≠ 0 ∨ ray.aligned.dy ≠ 0 := by
  have hsmall {step : K} (h : alignedStep step = 0) : step ^ 2 < 1e-8 := by
    have hstep : |step| < 1e-8 := by
      by_contra! hle
      rw [alignedStep, if_neg hle.not_gt] at h
      rw [h] at hle
      norm_num at hle
    have hsq : |step| ^ 2 < (1e-8 : K) ^ 2 := pow_lt_pow_left₀ hstep (abs_nonneg _) two_ne_zero
    rw [sq_abs] at hsq
    exact hsq.trans (by norm_num)
  by_contra! hzero
  have hx := hsmall hzero.1
  have hy := hsmall hzero.2
  norm_num at hx hy
  linarith

variable [Exact K]

theorem betweenSides_aligned (start step low high : K) (span : Span K) :
    betweenSides start (alignedStep step) low high span =
      betweenSides start step low high span := by
  by_cases h : |step| < 1e-8
  · have hzero : |(0 : K)| < 1e-8 := by norm_num
    have hparallel {u : K} (hu : |u| < 1e-8) : betweenSides start u low high span =
        .ok (if start < low ∨ high < start then none else some span) := by
      rw [← parallelBound_eq] at hu
      exact if_pos hu
    rw [alignedStep, if_pos h, hparallel hzero, hparallel h]
  · rw [alignedStep, if_neg h]

theorem hitBox_aligned (ray : Ray K) (box : Box K) : ray.aligned.hitBox box = ray.hitBox box := by
  simp only [hitBox, aligned, betweenSides_aligned]

end Ray

section

variable [IsStrictOrderedRing K] [Exact K]

namespace Span

theorem first?_of_bounds (near far : K) :
    (⟨some near, some far⟩ : Span K).first? =
      if far < near ∨ far < 0 then none else some (if 0 < near then near else far) := by
  have hfinite : Scalar.isInfinite far = false := rfl
  simp only [first?, isPast, Option.any_some, Option.filter_some, Exact.scalar_zero, hfinite,
    Bool.or_eq_true, decide_eq_true_eq, Bool.not_false, if_true]
  split_ifs <;> rfl

/-- A bounded range is met where it begins, if that is in front of the start of the ray, and
otherwise where it ends. It is not met exactly when it is empty or ends behind the start. -/
theorem first?_bounded (near far : K) :
    ((⟨some near, some far⟩ : Span K).first? = none ↔
        Set.Icc near far = ∅ ∨ ∀ s ∈ Set.Icc near far, s < 0) ∧
      ∀ t ∈ (⟨some near, some far⟩ : Span K).first?, near ≤ far ∧
        (0 < near → t = near) ∧ (near ≤ 0 → t = far) ∧ 0 ≤ t ∧ (t = near ∨ t = far) := by
  rw [first?_of_bounds]
  by_cases hpast : far < near ∨ far < 0
  · rw [if_pos hpast]
    refine ⟨iff_of_true rfl ?_, by simp⟩
    exact hpast.imp Set.Icc_eq_empty_of_lt fun hneg s hs => hs.2.trans_lt hneg
  · rw [if_neg hpast]
    push Not at hpast
    obtain ⟨hle, h0⟩ := hpast
    refine ⟨iff_of_false (by simp) ?_, fun t ht => ⟨hle, ?_⟩⟩
    · rintro (hempty | hneg)
      · exact (Set.nonempty_Icc.2 hle).ne_empty hempty
      · exact (hneg far (Set.right_mem_Icc.2 hle)).not_ge h0
    · obtain rfl := Option.some.inj ht
      split_ifs with hpos
      · exact ⟨fun _ => rfl, fun hneg => absurd hpos hneg.not_gt, hpos.le, .inl rfl⟩
      · exact ⟨fun h => absurd h hpos, fun _ => rfl, h0, .inr rfl⟩

end Span

namespace Ray

/-- The distance to a box is where the ray enters it, if that is in front of the start, and
otherwise where the ray leaves it. No distance is told exactly when the ray is nowhere in the box,
or only behind its start. -/
theorem hitBox_is_entry_or_exit (ray : Ray K) (hunit : ray.dx ^ 2 + ray.dy ^ 2 = 1) (box : Box K)
    (hx : box.xmin ≤ box.xmax) (hy : box.ymin ≤ box.ymax) :
    ∃ hit, ray.hitBox box = .ok hit ∧
      (hit = none ↔ ray.passage box = ∅ ∨ ∀ s ∈ ray.passage box, s < 0) ∧
      ∀ t ∈ hit, ∃ near far, IsLeast (ray.passage box) near ∧ IsGreatest (ray.passage box) far ∧
        (0 < near → t = near) ∧ (near ≤ 0 → t = far) ∧
        0 ≤ t ∧ box.OnBoundary (ray.aligned.point t) := by
  obtain ⟨range, hrange, hcontains, hsides⟩ := ray.aligned.hitBox_spec
    (alignedStep_eq_zero_or _) (alignedStep_eq_zero_or _) hx hy
  rw [hitBox_aligned] at hrange
  refine ⟨_, hrange, ?_⟩
  cases range with
  | none =>
    have hempty : ray.passage box = ∅ :=
      Set.eq_empty_of_forall_notMem fun s hs => by simpa using (hcontains s).2 hs
    simp [hempty]
  | some span =>
    obtain ⟨hbounded, hends⟩ := hsides span rfl
    obtain ⟨⟨near, hnear⟩, far, hfar⟩ := hbounded (aligned_ne_zero hunit)
    obtain ⟨enter, leave⟩ := span
    obtain rfl : enter = some near := hnear
    obtain rfl : leave = some far := hfar
    have hpassage : ray.passage box = Set.Icc near far := by
      ext s
      refine (hcontains s).symm.trans ?_
      simp [Span.Contains]
    obtain ⟨hnone, hsome⟩ := Span.first?_bounded near far
    rw [hpassage]
    refine ⟨hnone, fun t ht => ?_⟩
    obtain ⟨hle, hentry, hexit, h0, hend⟩ := hsome t ht
    have hmem : t ∈ ray.passage box := by
      rw [hpassage]
      rcases hend with rfl | rfl
      · exact Set.left_mem_Icc.2 hle
      · exact Set.right_mem_Icc.2 hle
    have hside : t ∈ some near ∨ t ∈ some far :=
      hend.imp (fun h => congrArg some h.symm) fun h => congrArg some h.symm
    exact ⟨near, far, isLeast_Icc hle, isGreatest_Icc hle, hentry, hexit, h0, hmem, hends t hside⟩

/-- A ray that starts on a side of the box and leaves it through a corner. -/
theorem hitBox_is_entry_or_exit_corner :
    (⟨0, 0, 0.6, 0.8⟩ : Ray ℝ).hitBox ⟨0, -1, 3, 4⟩ = .ok (some 5) := by
  have hunit : (0.6 : ℝ) ^ 2 + 0.8 ^ 2 = 1 := by norm_num
  obtain ⟨hit, hhit, hnone, hsome⟩ := hitBox_is_entry_or_exit
    ⟨0, 0, 0.6, 0.8⟩ hunit ⟨0, -1, 3, 4⟩ (by norm_num) (by norm_num)
  have hpassage (s : ℝ) : s ∈ (⟨0, 0, 0.6, 0.8⟩ : Ray ℝ).passage ⟨0, -1, 3, 4⟩ ↔ 0 ≤ s ∧ s ≤ 5 := by
    norm_num [passage, aligned, alignedStep, Box.Covers, point, abs_of_pos]
    constructor
    · rintro ⟨⟨h0, h3⟩, -, h4⟩
      exact ⟨by linarith, by linarith⟩
    · rintro ⟨h0, h5⟩
      exact ⟨⟨by linarith, by linarith⟩, by linarith, by linarith⟩
  cases hit with
  | none =>
    have h0 := (hpassage 0).2 (by norm_num)
    rcases hnone.1 rfl with hempty | hneg
    · exact absurd h0 (by simp [hempty])
    · exact absurd (hneg 0 h0) (lt_irrefl 0)
  | some t =>
    obtain ⟨near, far, hleast, hgreatest, -, hexit, -⟩ := hsome t rfl
    have hnear : near ≤ 0 := hleast.2 ((hpassage 0).2 (by norm_num))
    have hfar : far = 5 := le_antisymm ((hpassage far).1 hgreatest.1).2
      (hgreatest.2 ((hpassage 5).2 (by norm_num)))
    rw [hhit, hexit hnear, hfar]

end Ray

end

namespace Ray

/-- The distances in front of the start at which a ray is on a circle. -/
def crossings (ray : Ray K) (x y radius : K) : Set K :=
  {s | 0 < s ∧ (Obstacle.circle x y radius).OnSurface (ray.point s)}

/-- What a ray is told is the first of some distances, and nothing if there is none. -/
def FirstIn (distances : Set K) (hit : Option K) : Prop :=
  (∀ t, hit = some t ↔ IsLeast distances t) ∧ (hit = none ↔ distances = ∅)

omit [Field K] in
theorem FirstIn.of_isLeast {distances : Set K} {t : K} (h : IsLeast distances t) :
    FirstIn distances (some t) :=
  ⟨fun u => ⟨fun hu => Option.some.inj hu ▸ h, fun hu => congrArg some (h.unique hu)⟩,
    iff_of_false (by simp) h.nonempty.ne_empty⟩

omit [Field K] in
theorem FirstIn.of_empty {distances : Set K} (h : distances = ∅) : FirstIn distances none :=
  ⟨fun _ => iff_of_false (by simp) fun hu => hu.nonempty.ne_empty h, iff_of_true rfl h⟩

variable [IsStrictOrderedRing K]

section Unit

variable {ray : Ray K} (hunit : ray.dx ^ 2 + ray.dy ^ 2 = 1) {x y radius : K}

include hunit

theorem crossings_of_lt (h : radius ^ 2 < ray.across x y) : ray.crossings x y radius = ∅ := by
  refine Set.eq_empty_of_forall_notMem fun s hs => ?_
  have hon : ((ray.point s).1 - x) ^ 2 + ((ray.point s).2 - y) ^ 2 = radius ^ 2 := hs.2
  rw [sq_add_sq_point hunit] at hon
  linarith [sq_nonneg (s - ray.along x y)]

variable [Exact K] [Exact.HasRoots K]

theorem mem_crossings_iff (h : ray.across x y ≤ radius ^ 2) (s : K) :
    s ∈ ray.crossings x y radius ↔ 0 < s ∧
      (s = ray.along x y - ray.half x y radius ∨ s = ray.along x y + ray.half x y radius) := by
  have hon : (Obstacle.circle x y radius).OnSurface (ray.point s) ↔
      (s - ray.along x y) ^ 2 = ray.half x y radius ^ 2 := by
    rw [Obstacle.OnSurface, sq_add_sq_point hunit, half_sq h, eq_sub_iff_add_eq]
  refine and_congr_right fun _ => hon.trans ?_
  rw [sq_eq_sq_iff_eq_or_eq_neg, or_comm, sub_eq_iff_eq_add, sub_eq_iff_eq_add, neg_add_eq_sub,
    add_comm (ray.half x y radius)]

theorem firstIn_crossings (h : ray.across x y ≤ radius ^ 2) :
    FirstIn (ray.crossings x y radius)
      (if 0 < ray.along x y - ray.half x y radius then
          some (ray.along x y - ray.half x y radius)
        else if 0 < ray.along x y + ray.half x y radius then
          some (ray.along x y + ray.half x y radius)
        else none) := by
  have hhalf := half_nonneg h
  have hmem := mem_crossings_iff hunit h
  split_ifs with hnear hfar
  · refine .of_isLeast ⟨(hmem _).2 ⟨hnear, .inl rfl⟩, fun s hs => ?_⟩
    rcases ((hmem s).1 hs).2 with rfl | rfl <;> linarith
  · refine .of_isLeast ⟨(hmem _).2 ⟨hfar, .inr rfl⟩, fun s hs => ?_⟩
    obtain ⟨hpos, rfl | rfl⟩ := (hmem s).1 hs
    · exact absurd hpos hnear
    · exact le_rfl
  · refine .of_empty (Set.eq_empty_of_forall_notMem fun s hs => ?_)
    obtain ⟨hpos, rfl | rfl⟩ := (hmem s).1 hs
    · exact hnear hpos
    · exact hfar hpos

end Unit

/-- The distance to a circle is the first one in front of the start at which the ray is on the
circle. From strictly inside it is the way out, and a ray that starts on the circle and does not
head into it is told no distance. -/
theorem hitCircle_is_first_crossing [Exact K] [Exact.HasRoots K] (ray : Ray K)
    (hunit : ray.dx ^ 2 + ray.dy ^ 2 = 1) (x y radius : K) :
    ∃ hit, ray.hitCircle x y radius = .ok hit ∧
      (∀ t, hit = some t ↔ IsLeast (ray.crossings x y radius) t) ∧
      (hit = none ↔ ray.crossings x y radius = ∅) ∧
      ((ray.x - x) ^ 2 + (ray.y - y) ^ 2 < radius ^ 2 → ∃ t, hit = some t ∧
        ∀ s, 0 ≤ s → ((Obstacle.circle x y radius).Covers (ray.point s) ↔ s ≤ t)) ∧
      ((ray.x - x) ^ 2 + (ray.y - y) ^ 2 = radius ^ 2 →
        0 ≤ (ray.x - x) * ray.dx + (ray.y - y) * ray.dy → hit = none) := by
  have hstart : (ray.x - x) ^ 2 + (ray.y - y) ^ 2 = ray.along x y ^ 2 + ray.across x y := by
    simpa using sq_add_sq_point hunit x y 0
  rcases lt_or_ge (radius ^ 2) (ray.across x y) with hoff | hon
  · have hfirst := FirstIn.of_empty (crossings_of_lt hunit hoff)
    refine ⟨none, hitCircle_of_lt hoff, hfirst.1, hfirst.2, fun hin => ?_, fun _ _ => rfl⟩
    linarith [sq_nonneg (ray.along x y)]
  · have hfirst := firstIn_crossings hunit hon
    have hhalf := half_nonneg hon
    have hsq := half_sq hon
    refine ⟨_, hitCircle_of_le hon, hfirst.1, hfirst.2, fun hin => ?_, fun hedge hout => ?_⟩
    · -- The start is between the two roots.
      have habs : |ray.along x y| < ray.half x y radius :=
        abs_lt_of_sq_lt_sq (by linarith) hhalf
      obtain ⟨hlow, hhigh⟩ := abs_lt.1 habs
      rw [if_neg (by linarith), if_pos (by linarith)]
      refine ⟨_, rfl, fun s hs => ?_⟩
      rw [covers_circle_iff hunit hon]
      exact and_iff_right (by linarith)
    · -- The start is one of the two roots, and the other one is not in front of it.
      have hbehind : ray.along x y ≤ 0 := by
        have halong : ray.along x y = -((ray.x - x) * ray.dx + (ray.y - y) * ray.dy) := by
          rw [along]
          ring
        linarith
      have hroot : ray.half x y radius = -ray.along x y := by
        rw [← abs_of_nonneg hhalf, ← abs_of_nonpos hbehind]
        exact (sq_eq_sq_iff_abs_eq_abs _ _).1 (by linarith)
      rw [if_neg (by linarith), if_neg (by linarith)]

/-- A ray that touches a circle whose radius is negative. -/
theorem hitCircle_is_first_crossing_tangent :
    (⟨0, 0, 1, 0⟩ : Ray ℝ).hitCircle 3 1 (-1) = .ok (some 3) := by
  have hunit : (1 : ℝ) ^ 2 + 0 ^ 2 = 1 := by norm_num
  obtain ⟨hit, hhit, hfirst, -⟩ :=
    hitCircle_is_first_crossing ⟨0, 0, 1, 0⟩ hunit 3 1 (-1)
  have hcrossings : (⟨0, 0, 1, 0⟩ : Ray ℝ).crossings 3 1 (-1) = {3} := by
    ext s
    have hon : (Obstacle.circle 3 1 (-1)).OnSurface ((⟨0, 0, 1, 0⟩ : Ray ℝ).point s) ↔ s = 3 := by
      norm_num [Obstacle.OnSurface, point, sub_eq_zero]
    rw [Set.mem_singleton_iff]
    refine (and_congr_right fun _ => hon).trans (and_iff_right_of_imp fun h => ?_)
    rw [h]
    norm_num
  rw [hhit, (hfirst 3).2 (hcrossings ▸ isLeast_singleton)]

end Ray

end PlanarDrive
