import PlanarDrive.Proofs.ExactNumbers
import PlanarDrive.Ray

/-!
# What a ray meets first

In exact numbers an obstacle is a closed region of the plane. A ray of unit direction that
starts outside an obstacle stays free of it up to the distance it is told, or for good when it
is told none, and at that distance it is on the surface.

A box narrows the range of distances to those between its sides, one pair after the other. A
circle is met at the smaller of the two roots of a square.
-/

namespace PlanarDrive

variable {K : Type} [Field K] [LinearOrder K]

namespace Obstacle

/-- The closed region of an obstacle. The radius of a circle counts by its size. -/
def Covers : Obstacle K → K × K → Prop
  | circle x y radius, p => (p.1 - x) ^ 2 + (p.2 - y) ^ 2 ≤ radius ^ 2
  | rectangle x y width height, p => |p.1 - x| ≤ width / 2 ∧ |p.2 - y| ≤ height / 2
  | missing, _ => False

/-- The points of an obstacle that lie on its circle or on one of its sides. -/
def OnSurface : Obstacle K → K × K → Prop
  | circle x y radius, p => (p.1 - x) ^ 2 + (p.2 - y) ^ 2 = radius ^ 2
  | rectangle x y width height, p =>
    (|p.1 - x| ≤ width / 2 ∧ |p.2 - y| ≤ height / 2) ∧
      (|p.1 - x| = width / 2 ∨ |p.2 - y| = height / 2)
  | missing, _ => False

theorem OnSurface.covers {o : Obstacle K} {p : K × K} (h : o.OnSurface p) : o.Covers p := by
  cases o with
  | circle x y radius => exact h.le
  | rectangle x y width height => exact h.1
  | missing => exact h

/-- A circle, or a rectangle whose extent is not negative. -/
def IsShape : Obstacle K → Prop
  | circle _ _ _ => True
  | rectangle _ _ width height => 0 ≤ width ∧ 0 ≤ height
  | missing => False

variable [IsStrictOrderedRing K]

theorem covers_rectangle_iff {cx cy width height : K} {p : K × K} :
    (rectangle cx cy width height).Covers p ↔
      (cx - width / 2 ≤ p.1 ∧ p.1 ≤ cx + width / 2) ∧
        (cy - height / 2 ≤ p.2 ∧ p.2 ≤ cy + height / 2) := by
  rw [Covers, abs_sub_comm p.1, abs_sub_comm p.2, Set.mem_Icc_iff_abs_le,
    Set.mem_Icc_iff_abs_le]
  rfl

theorem abs_sub_eq_half {a c u : K} (ha : 0 ≤ a) (h : u = c - a / 2 ∨ u = c + a / 2) :
    |u - c| = a / 2 := by
  rcases h with rfl | rfl
  · rw [sub_sub_cancel_left, abs_neg, abs_of_nonneg (by linarith)]
  · rw [add_sub_cancel_left, abs_of_nonneg (by linarith)]

end Obstacle

namespace Ray

def point (ray : Ray K) (s : K) : K × K :=
  (ray.x + s * ray.dx, ray.y + s * ray.dy)

omit [LinearOrder K] in
@[simp] theorem point_zero (ray : Ray K) : ray.point 0 = (ray.x, ray.y) := by
  simp [point]

/-- A hit is in front of the start and on the surface of the obstacle, and the ray is free of
the obstacle before it. Without a hit the ray is free from its start on. -/
structure FirstHit (ray : Ray K) (o : Obstacle K) (hit : Option K) : Prop where
  pos : ∀ t ∈ hit, 0 < t
  surface : ∀ t ∈ hit, o.OnSurface (ray.point t)
  free : ∀ s, 0 ≤ s → (∀ t ∈ hit, s < t) → ¬ o.Covers (ray.point s)

/-- A direction of unit length, with no component that only counts as parallel to an axis. -/
structure IsClear (ray : Ray K) : Prop where
  unit : ray.dx ^ 2 + ray.dy ^ 2 = 1
  dx : ray.dx = 0 ∨ 1e-8 ≤ |ray.dx|
  dy : ray.dy = 0 ∨ 1e-8 ≤ |ray.dy|

end Ray

variable [Exact K]

namespace Span

def Contains (span : Span K) (s : K) : Prop :=
  (∀ near ∈ span.enter, near ≤ s) ∧ ∀ far ∈ span.leave, s ≤ far

def IsBounded (span : Span K) : Prop :=
  (∃ near, near ∈ span.enter) ∧ ∃ far, far ∈ span.leave

omit [Field K] [Exact K] in
theorem contains_whole (s : K) : (whole : Span K).Contains s := by
  simp [Contains, whole]

theorem contains_between_iff {span : Span K} {s t u : K} :
    (span.between s t).Contains u ↔ span.Contains u ∧ min s t ≤ u ∧ u ≤ max s t := by
  rcases span with ⟨_ | near, _ | far⟩ <;>
    simp only [Contains, between, later, earlier, Exact.scalar_least, Exact.scalar_greatest,
      Exact.scalar_isNaN, Bool.false_eq_true, if_false, Option.mem_def, Option.some.injEq,
      forall_eq', reduceCtorEq, false_implies, implies_true, max_le_iff, le_min_iff,
      true_and] <;>
    tauto

theorem enter_between {span : Span K} {s t near : K} (h : near ∈ (span.between s t).enter) :
    near ∈ span.enter ∨ near = min s t := by
  rcases span with ⟨_ | first, leave⟩
  · simp only [between, later, Exact.scalar_isNaN, Exact.scalar_least, Bool.false_eq_true,
      if_false, Option.mem_def, Option.some.injEq] at h
    exact .inr h.symm
  · simp only [between, later, Exact.scalar_greatest, Exact.scalar_least, Option.mem_def,
      Option.some.injEq] at h
    rcases max_choice first (min s t) with hm | hm
    · exact .inl (by rw [← h, hm]; rfl)
    · exact .inr (by rw [← h, hm])

theorem leave_between {span : Span K} {s t far : K} (h : far ∈ (span.between s t).leave) :
    far ∈ span.leave ∨ far = max s t := by
  rcases span with ⟨enter, _ | last⟩
  · simp only [between, earlier, Exact.scalar_isNaN, Exact.scalar_greatest, Bool.false_eq_true,
      if_false, Option.mem_def, Option.some.injEq] at h
    exact .inr h.symm
  · simp only [between, earlier, Exact.scalar_greatest, Exact.scalar_least, Option.mem_def,
      Option.some.injEq] at h
    rcases min_choice last (max s t) with hm | hm
    · exact .inl (by rw [← h, hm]; rfl)
    · exact .inr (by rw [← h, hm])

theorem isBounded_between (span : Span K) (s t : K) : (span.between s t).IsBounded := by
  rcases span with ⟨_ | near, _ | far⟩ <;> simp [between, later, earlier, IsBounded]

variable [IsStrictOrderedRing K]

theorem isPast_iff {span : Span K} :
    span.isPast = true ↔
      ∃ far ∈ span.leave, (∃ near ∈ span.enter, far < near) ∨ far < 0 := by
  rcases span with ⟨_ | near, _ | far⟩ <;> simp [isPast, Exact.scalar_zero]

/-- A range that leaves out the start of the ray is first met where it begins. -/
theorem first?_spec {span : Span K} (h0 : ¬ span.Contains 0) :
    (∀ t ∈ span.first?, 0 < t ∧ t ∈ span.enter ∧ span.Contains t) ∧
      ∀ s, 0 ≤ s → (∀ t ∈ span.first?, s < t) → ¬ span.Contains s := by
  cases hpast : span.isPast with
  | true =>
    obtain ⟨far, hfar, h⟩ := isPast_iff.1 hpast
    simp only [first?, hpast, if_true, Option.mem_def, reduceCtorEq, false_implies,
      implies_true, true_and]
    intro s hs _ hin
    rcases h with ⟨near, hnear, h⟩ | h
    · exact absurd h (not_lt.2 ((hin.1 near hnear).trans (hin.2 far hfar)))
    · exact absurd h (not_lt.2 (hs.trans (hin.2 far hfar)))
  | false =>
    -- The range ends at zero or later, so it can leave out zero only by beginning later.
    have hlate : ∃ near ∈ span.enter, 0 < near := by
      by_contra! hle
      refine h0 ⟨hle, fun far hfar => ?_⟩
      by_contra! hneg
      rw [isPast_iff.2 ⟨far, hfar, .inr hneg⟩] at hpast
      cases hpast
    obtain ⟨near, hnear, hpos⟩ := hlate
    have hfirst : span.first? = some near := by
      have hfront : decide ((0.0 : K) < near) = true := decide_eq_true (by rwa [Exact.scalar_zero])
      simp [first?, hpast, Option.mem_def.1 hnear, Option.filter, hfront]
    rw [hfirst]
    refine ⟨fun t ht => ?_, fun s _ hs hin => ?_⟩
    · cases ht
      refine ⟨hpos, hnear, fun first hfirst => ?_, fun far hfar => ?_⟩
      · rw [Option.mem_unique hfirst hnear]
      · by_contra! hlt
        rw [isPast_iff.2 ⟨far, hfar, .inl ⟨near, hnear, hlt⟩⟩] at hpast
        cases hpast
    · exact absurd (hin.1 near hnear) (not_le.2 (hs near rfl))

end Span

namespace Ray

variable [IsStrictOrderedRing K]

/-- A range narrowed to the distances at which a coordinate is between two sides. If none is
left there is no range, and a range that is left begins and ends where the old one did or at a
side. A ray that crosses the sides bounds it. -/
structure Narrows (start step low high : K) (span : Span K) (narrowed : Option (Span K)) :
    Prop where
  contains_iff : ∀ s, (∃ n ∈ narrowed, n.Contains s) ↔
    span.Contains s ∧ low ≤ start + s * step ∧ start + s * step ≤ high
  enter : ∀ n ∈ narrowed, ∀ near ∈ n.enter,
    near ∈ span.enter ∨ start + near * step = low ∨ start + near * step = high
  leave : ∀ n ∈ narrowed, ∀ far ∈ n.leave,
    far ∈ span.leave ∨ start + far * step = low ∨ start + far * step = high
  bounded : ∀ n ∈ narrowed, step ≠ 0 ∨ span.IsBounded → n.IsBounded

theorem parallelBound_eq : (parallelBound : K) = 1e-8 := by
  show (OfScientific.ofScientific 1 true 8 : K) = _
  norm_num

omit [Exact K] [IsStrictOrderedRing K] in
theorem narrows_of_parallel (start low high : K) (span : Span K) :
    Narrows start 0 low high span (if start < low ∨ high < start then none else some span) := by
  split_ifs with hout
  · constructor
    · simp only [Option.mem_def, reduceCtorEq, false_and, exists_false, mul_zero, add_zero,
        false_iff, not_and, not_le]
      intro s _ hlow
      exact hout.resolve_left hlow.not_gt
    all_goals simp
  · push Not at hout
    refine ⟨by simp [hout], fun n hn near hnear => ?_, fun n hn far hfar => ?_,
      fun n hn hbounded => ?_⟩
    · cases hn
      exact .inl hnear
    · cases hn
      exact .inl hfar
    · cases hn
      exact hbounded.resolve_left (fun h => h rfl)

theorem narrows_of_ne_zero {start step low high : K} (hstep : step ≠ 0) (hlow : low ≤ high)
    (span : Span K) :
    Narrows start step low high span
      (some (span.between ((low - start) / step) ((high - start) / step))) := by
  have hcross (side : K) : start + (side - start) / step * step = side := by
    rw [div_mul_cancel₀ _ hstep]
    ring
  refine ⟨fun s => ?_, fun n hn near hnear => ?_, fun n hn far hfar => ?_, fun n hn _ => ?_⟩
  · simp only [Option.mem_def, Option.some.injEq, exists_eq_left', Span.contains_between_iff]
    refine and_congr_right fun _ => ?_
    rcases lt_or_gt_of_ne hstep with hneg | hpos
    · have hle : (high - start) / step ≤ (low - start) / step :=
        (div_le_div_right_of_neg hneg).2 (by linarith)
      rw [min_eq_right hle, max_eq_left hle, div_le_iff_of_neg hneg, le_div_iff_of_neg hneg,
        le_sub_iff_add_le', sub_le_iff_le_add', and_comm]
    · have hle : (low - start) / step ≤ (high - start) / step :=
        (div_le_div_iff_of_pos_right hpos).2 (by linarith)
      rw [min_eq_left hle, max_eq_right hle, div_le_iff₀ hpos, le_div_iff₀ hpos,
        sub_le_iff_le_add', le_sub_iff_add_le']
  · cases hn
    refine (Span.enter_between hnear).imp_right fun h => ?_
    rcases min_choice ((low - start) / step) ((high - start) / step) with hm | hm
    · exact .inl (by rw [h, hm, hcross])
    · exact .inr (by rw [h, hm, hcross])
  · cases hn
    refine (Span.leave_between hfar).imp_right fun h => ?_
    rcases max_choice ((low - start) / step) ((high - start) / step) with hm | hm
    · exact .inl (by rw [h, hm, hcross])
    · exact .inr (by rw [h, hm, hcross])
  · cases hn
    exact span.isBounded_between _ _

theorem betweenSides_spec (start : K) {step low high : K} (hstep : step = 0 ∨ 1e-8 ≤ |step|)
    (hlow : low ≤ high) (span : Span K) :
    ∃ narrowed, betweenSides start step low high span = .ok narrowed ∧
      Narrows start step low high span narrowed := by
  have habs : Scalar.abs step = |step| := rfl
  unfold betweenSides
  rw [parallelBound_eq, habs]
  rcases hstep with rfl | hstep
  · exact ⟨_, if_pos (by norm_num), narrows_of_parallel start low high span⟩
  · have hne : step ≠ 0 := by
      rintro rfl
      norm_num at hstep
    refine ⟨_, ?_, narrows_of_ne_zero hne hlow span⟩
    rw [if_neg hstep.not_gt, Exact.scalar_divide hne, Exact.scalar_divide hne]
    rfl

/-- A closed region that leaves a range of distances is first met where the range begins. -/
theorem firstHit_of_range {ray : Ray K} {o : Obstacle K} {range : Option (Span K)}
    (hcovers : ∀ s, (∃ span ∈ range, span.Contains s) ↔ o.Covers (ray.point s))
    (henter : ∀ span ∈ range, ∀ near ∈ span.enter, o.Covers (ray.point near) →
      o.OnSurface (ray.point near))
    (hout : ¬ o.Covers (ray.point 0)) : ray.FirstHit o (range.bind Span.first?) := by
  rw [← hcovers] at hout
  cases range with
  | none =>
    refine ⟨by simp, by simp, fun s _ _ hin => ?_⟩
    obtain ⟨span, hspan, -⟩ := (hcovers s).2 hin
    cases hspan
  | some span =>
    have hout' : ¬ span.Contains 0 := fun h => hout ⟨span, rfl, h⟩
    obtain ⟨hfirst, hfree⟩ := Span.first?_spec hout'
    refine ⟨fun t ht => (hfirst t ht).1, fun t ht => ?_, fun s hs hlt hin => ?_⟩
    · obtain ⟨-, hnear, hin⟩ := hfirst t ht
      exact henter span rfl t hnear ((hcovers t).1 ⟨span, rfl, hin⟩)
    · obtain ⟨span', hspan, hin⟩ := (hcovers s).2 hin
      cases hspan
      exact hfree s hs hlt hin

theorem box_around_eq (cx cy width height : K) :
    Box.around cx cy width height =
      ⟨cx - width / 2, cy - height / 2, cx + width / 2, cy + height / 2⟩ := by
  have htwo : (Scalar.toOfScientific.ofScientific 20 true 1 : K) = 2 := by norm_num
  simp only [Box.around, htwo]

/-- The distances at which a ray is in a box, and the sides at which they begin and end. -/
theorem hitBox_spec (ray : Ray K) (hdx : ray.dx = 0 ∨ 1e-8 ≤ |ray.dx|)
    (hdy : ray.dy = 0 ∨ 1e-8 ≤ |ray.dy|) {box : Box K} (hx : box.xmin ≤ box.xmax)
    (hy : box.ymin ≤ box.ymax) :
    ∃ range : Option (Span K), ray.hitBox box = .ok (range.bind Span.first?) ∧
      (∀ s, (∃ span ∈ range, span.Contains s) ↔
        (box.xmin ≤ (ray.point s).1 ∧ (ray.point s).1 ≤ box.xmax) ∧
          box.ymin ≤ (ray.point s).2 ∧ (ray.point s).2 ≤ box.ymax) ∧
      ∀ span ∈ range, (ray.dx ≠ 0 ∨ ray.dy ≠ 0 → span.IsBounded) ∧
        ∀ t, t ∈ span.enter ∨ t ∈ span.leave →
          ((ray.point t).1 = box.xmin ∨ (ray.point t).1 = box.xmax) ∨
            (ray.point t).2 = box.ymin ∨ (ray.point t).2 = box.ymax := by
  obtain ⟨across, hacross, hnx⟩ := betweenSides_spec ray.x hdx hx Span.whole
  rw [hitBox, hacross]
  cases across with
  | none =>
    refine ⟨none, rfl, fun s => ?_, by simp⟩
    have hnone := (hnx.contains_iff s).not.1 (by simp)
    simp only [Span.contains_whole, true_and] at hnone
    simpa [point] using fun h h' => absurd ⟨h, h'⟩ hnone
  | some span =>
    obtain ⟨both, hboth, hny⟩ := betweenSides_spec ray.y hdy hy span
    refine ⟨both, ?_, fun s => ?_, fun last hlast => ⟨fun hcross => ?_, fun t ht => ?_⟩⟩
    · show (betweenSides ray.y ray.dy box.ymin box.ymax span >>= _) = _
      rw [hboth]
      cases both <;> rfl
    · rw [hny.contains_iff]
      have hx := hnx.contains_iff s
      simp only [Option.mem_def, Option.some.injEq, exists_eq_left', Span.contains_whole,
        true_and] at hx
      rw [hx]
      rfl
    · exact hny.bounded last hlast (hcross.symm.imp_right fun h => hnx.bounded span rfl (.inl h))
    · rcases ht with hnear | hfar
      · refine (hny.enter last hlast t hnear).imp_left fun h => ?_
        exact (hnx.enter span rfl t h).resolve_left (by simp [Span.whole])
      · refine (hny.leave last hlast t hfar).imp_left fun h => ?_
        exact (hnx.leave span rfl t h).resolve_left (by simp [Span.whole])

theorem hit_rectangle_spec {ray : Ray K} (hr : ray.IsClear) {cx cy width height : K}
    (hw : 0 ≤ width) (hh : 0 ≤ height)
    (hout : ¬ (Obstacle.rectangle cx cy width height).Covers (ray.point 0)) :
    ∃ hit, ray.hit (.rectangle cx cy width height) = .ok hit ∧
      ray.FirstHit (.rectangle cx cy width height) hit := by
  have hx : (Box.around cx cy width height).xmin ≤ (Box.around cx cy width height).xmax := by
    rw [box_around_eq]
    linarith
  have hy : (Box.around cx cy width height).ymin ≤ (Box.around cx cy width height).ymax := by
    rw [box_around_eq]
    linarith
  obtain ⟨range, hrange, hcontains, hsides⟩ := ray.hitBox_spec hr.dx hr.dy hx hy
  rw [box_around_eq] at hcontains hsides
  refine ⟨_, hrange, firstHit_of_range (fun s => ?_) (fun span hspan near hnear hin => ?_) hout⟩
  · rw [hcontains, Obstacle.covers_rectangle_iff]
  · exact ⟨hin, ((hsides span hspan).2 near (.inl hnear)).imp (Obstacle.abs_sub_eq_half hw)
      (Obstacle.abs_sub_eq_half hh)⟩

def along (ray : Ray K) (x y : K) : K :=
  (x - ray.x) * ray.dx + (y - ray.y) * ray.dy

/-- The square of how far off the line of the ray a point is. -/
def across (ray : Ray K) (x y : K) : K :=
  (x - ray.x) * (x - ray.x) + (y - ray.y) * (y - ray.y) - ray.along x y * ray.along x y

omit [Exact K] in
theorem sq_add_sq_point {ray : Ray K} (hunit : ray.dx ^ 2 + ray.dy ^ 2 = 1) (x y s : K) :
    ((ray.point s).1 - x) ^ 2 + ((ray.point s).2 - y) ^ 2 =
      (s - ray.along x y) ^ 2 + ray.across x y := by
  simp only [point, across, along]
  linear_combination s ^ 2 * hunit

def half (ray : Ray K) (x y radius : K) : K :=
  Exact.sqrt (radius ^ 2 - ray.across x y)

omit [IsStrictOrderedRing K] in
theorem hitCircle_of_lt {ray : Ray K} {x y radius : K} (h : radius ^ 2 < ray.across x y) :
    ray.hitCircle x y radius = .ok none := by
  rw [sq] at h
  exact if_pos h

theorem hitCircle_of_le {ray : Ray K} {x y radius : K} (h : ray.across x y ≤ radius ^ 2) :
    ray.hitCircle x y radius =
      .ok (if 0 < ray.along x y - ray.half x y radius then
          some (ray.along x y - ray.half x y radius)
        else if 0 < ray.along x y + ray.half x y radius then
          some (ray.along x y + ray.half x y radius)
        else none) := by
  have hroot : Scalar.squareRoot
      (Scalar.greatest (radius * radius - ray.across x y) (0.0 : K)) =
        .ok (ray.half x y radius) := by
    rw [← sq, Exact.scalar_zero, Exact.scalar_greatest, max_eq_left (sub_nonneg.2 h),
      Exact.scalar_squareRoot (sub_nonneg.2 h)]
    rfl
  have hmiss : ¬ radius * radius < ray.across x y := by
    rw [← sq]
    exact h.not_gt
  show (if radius * radius < ray.across x y then _ else (Scalar.squareRoot
    (Scalar.greatest (radius * radius - ray.across x y) (0.0 : K)) >>= _)) = _
  rw [if_neg hmiss, hroot]
  simp only [bind, Except.bind, Exact.scalar_zero]
  rfl

variable [Exact.HasRoots K]

theorem half_nonneg {ray : Ray K} {x y radius : K} (h : ray.across x y ≤ radius ^ 2) :
    0 ≤ ray.half x y radius :=
  Exact.HasRoots.sqrt_nonneg _ (sub_nonneg.2 h)

theorem half_sq {ray : Ray K} {x y radius : K} (h : ray.across x y ≤ radius ^ 2) :
    ray.half x y radius ^ 2 = radius ^ 2 - ray.across x y := by
  rw [sq]
  exact Exact.HasRoots.sqrt_mul_self _ (sub_nonneg.2 h)

theorem covers_circle_iff {ray : Ray K} (hunit : ray.dx ^ 2 + ray.dy ^ 2 = 1) {x y radius : K}
    (h : ray.across x y ≤ radius ^ 2) (s : K) :
    (Obstacle.circle x y radius).Covers (ray.point s) ↔
      ray.along x y - ray.half x y radius ≤ s ∧ s ≤ ray.along x y + ray.half x y radius := by
  have hcovers : (Obstacle.circle x y radius).Covers (ray.point s) ↔
      (s - ray.along x y) ^ 2 ≤ ray.half x y radius ^ 2 := by
    rw [Obstacle.Covers, sq_add_sq_point hunit, half_sq h, le_sub_iff_add_le]
  rw [hcovers, sq_le_sq, abs_of_nonneg (half_nonneg h), abs_sub_comm, Set.mem_Icc_iff_abs_le]
  rfl

theorem hit_circle_spec {ray : Ray K} (hr : ray.IsClear) {x y radius : K}
    (hout : ¬ (Obstacle.circle x y radius).Covers (ray.point 0)) :
    ∃ hit, ray.hit (.circle x y radius) = .ok hit ∧ ray.FirstHit (.circle x y radius) hit := by
  rcases lt_or_ge (radius ^ 2) (ray.across x y) with hfar | hnear
  · refine ⟨none, hitCircle_of_lt hfar, by simp, by simp, fun s _ _ hin => ?_⟩
    rw [Obstacle.Covers, sq_add_sq_point hr.unit] at hin
    linarith [sq_nonneg (s - ray.along x y)]
  · refine ⟨_, hitCircle_of_le hnear, ?_⟩
    rw [covers_circle_iff hr.unit hnear] at hout
    by_cases hpos : 0 < ray.along x y - ray.half x y radius
    · rw [if_pos hpos]
      refine ⟨fun t ht => ?_, fun t ht => ?_, fun s _ hs hin => ?_⟩
      · cases ht
        exact hpos
      · cases ht
        rw [Obstacle.OnSurface, sq_add_sq_point hr.unit, sub_sub_cancel_left, neg_sq, half_sq hnear]
        ring
      · have hs := hs _ rfl
        rw [covers_circle_iff hr.unit hnear] at hin
        linarith
    · -- The circle begins behind the start, which is outside: so it ends there as well.
      have hneg : ray.along x y + ray.half x y radius < 0 := by
        by_contra! hend
        exact hout ⟨not_lt.1 hpos, hend⟩
      rw [if_neg hpos, if_neg hneg.not_gt]
      refine ⟨by simp, by simp, fun s hs _ hin => ?_⟩
      rw [covers_circle_iff hr.unit hnear] at hin
      linarith

/-- Every shape that does not cover the start of a ray is met where the ray first enters it. -/
theorem hit_spec {ray : Ray K} (hr : ray.IsClear) {o : Obstacle K} (ho : o.IsShape)
    (hout : ¬ o.Covers (ray.point 0)) : ∃ hit, ray.hit o = .ok hit ∧ ray.FirstHit o hit := by
  cases o with
  | circle x y radius => exact hit_circle_spec hr hout
  | rectangle x y width height => exact hit_rectangle_spec hr ho.1 ho.2 hout
  | missing => exact ho.elim

end Ray

end PlanarDrive
