import PlanarDrive.Proofs.BeamFan
import PlanarDrive.Proofs.HitDistance

/-!
# Scans and the symmetries of the plane

In exact numbers the sensor knows no place and no direction. When the rover and all obstacles are
shifted, or turned by a quarter of a turn, every ray is told what it was told before, so a scan
stays the same. In the mirror image left and right change places, and a scan is read in reverse.
Other turns are left out, as they take rectangles along the axes to others that are not.
-/

namespace PlanarDrive

variable {K : Type} [Field K] [LinearOrder K]

/-- Exact numbers whose cosine and sine follow an angle to its negative and by a quarter turn. -/
class Exact.QuarterTurns (K : Type) [Field K] [LinearOrder K] [Exact K] : Prop where
  cos_neg (a : K) : Exact.cos (-a) = Exact.cos a
  sin_neg (a : K) : Exact.sin (-a) = -Exact.sin a
  cos_add_quarter (a : K) : Exact.cos (a + Exact.pi / 2) = -Exact.sin a
  sin_add_quarter (a : K) : Exact.sin (a + Exact.pi / 2) = Exact.cos a

instance : Exact.QuarterTurns ℝ where
  cos_neg := Real.cos_neg
  sin_neg := Real.sin_neg
  cos_add_quarter := Real.cos_add_pi_div_two
  sin_add_quarter := Real.sin_add_pi_div_two

/-- A symmetry of the plane that takes rectangles along the axes to such rectangles: a shift, a
quarter turn to the left about the origin, or the mirror image in the x axis. -/
inductive Symmetry (K : Type)
  | shift (dx dy : K)
  | quarterTurn
  | mirror

namespace Symmetry

def obstacle : Symmetry K → Obstacle K → Obstacle K
  | shift dx dy, .circle x y radius => .circle (x + dx) (y + dy) radius
  | shift dx dy, .rectangle x y width height => .rectangle (x + dx) (y + dy) width height
  | quarterTurn, .circle x y radius => .circle (-y) x radius
  | quarterTurn, .rectangle x y width height => .rectangle (-y) x height width
  | mirror, .circle x y radius => .circle x (-y) radius
  | mirror, .rectangle x y width height => .rectangle x (-y) width height
  | _, .missing => .missing

def box : Symmetry K → Box K → Box K
  | shift dx dy, b => ⟨b.xmin + dx, b.ymin + dy, b.xmax + dx, b.ymax + dy⟩
  | quarterTurn, b => ⟨-b.ymax, b.xmin, -b.ymin, b.xmax⟩
  | mirror, b => ⟨b.xmin, -b.ymax, b.xmax, -b.ymin⟩

def ray : Symmetry K → Ray K → Ray K
  | shift dx dy, r => ⟨r.x + dx, r.y + dy, r.dx, r.dy⟩
  | quarterTurn, r => ⟨-r.y, r.x, -r.dy, r.dx⟩
  | mirror, r => ⟨r.x, -r.y, r.dx, -r.dy⟩

/-- The order in which the image of a fan is swept. -/
def order {β : Type} : Symmetry K → List β → List β
  | mirror, xs => xs.reverse
  | _, xs => xs

omit [Field K] [LinearOrder K] in
theorem map_order {β γ : Type} (g : Symmetry K) (f : β → γ) (xs : List β) :
    (g.order xs).map f = g.order (xs.map f) := by
  cases g with
  | mirror => exact List.map_reverse
  | _ => rfl

variable [Exact K]

def heading : Symmetry K → K → K
  | shift _ _, a => a
  | quarterTurn, a => a + Exact.pi / 2.0
  | mirror, a => -a

def pose : Symmetry K → Pose K → Pose K
  | shift dx dy, p => ⟨p.x + dx, p.y + dy, p.theta⟩
  | quarterTurn, p => ⟨-p.y, p.x, p.theta + Exact.pi / 2.0⟩
  | mirror, p => ⟨p.x, -p.y, -p.theta⟩

theorem facing_heading (g : Symmetry K) (p : Pose K) (a : K) :
    (g.pose p).facing (g.heading a) = g.pose (p.facing a) := by
  cases g <;> rfl

theorem theta_pose (g : Symmetry K) (p : Pose K) : (g.pose p).theta = g.heading p.theta := by
  cases g <;> rfl

theorem ahead_pose [IsStrictOrderedRing K] [Exact.QuarterTurns K] (g : Symmetry K) (p : Pose K) :
    (g.pose p).ahead = g.ray p.ahead := by
  have htwo : (2.0 : K) = 2 := by norm_num
  cases g with
  | shift dx dy => rfl
  | quarterTurn =>
    simp only [Pose.ahead, pose, ray, htwo, Exact.QuarterTurns.cos_add_quarter,
      Exact.QuarterTurns.sin_add_quarter]
  | mirror =>
    simp only [Pose.ahead, pose, ray, Exact.QuarterTurns.cos_neg, Exact.QuarterTurns.sin_neg]

end Symmetry

variable [Exact K]

namespace Span

theorem later_right_comm (enter : Option K) (s t : K) :
    later (later enter s) t = later (later enter t) s := by
  cases enter with
  | none => exact congrArg some (by simp only [Exact.scalar_greatest, max_comm])
  | some near => exact congrArg some (by simp only [Exact.scalar_greatest, max_right_comm])

theorem earlier_right_comm (leave : Option K) (s t : K) :
    earlier (earlier leave s) t = earlier (earlier leave t) s := by
  cases leave with
  | none => exact congrArg some (by simp only [Exact.scalar_least, min_comm])
  | some far => exact congrArg some (by simp only [Exact.scalar_least, min_right_comm])

theorem between_right_comm (span : Span K) (s t u v : K) :
    (span.between s t).between u v = (span.between u v).between s t := by
  simp only [between, later_right_comm span.enter (Scalar.least s t),
    earlier_right_comm span.leave (Scalar.greatest s t)]

theorem between_comm (span : Span K) (s t : K) : span.between s t = span.between t s := by
  simp only [between, Exact.scalar_least, Exact.scalar_greatest, min_comm, max_comm]

end Span

namespace Ray

variable [IsStrictOrderedRing K]

def narrow (start step low high : K) (span : Span K) : Option (Span K) :=
  if |step| < 1e-8 then if start < low ∨ high < start then none else some span
  else some (span.between ((low - start) / step) ((high - start) / step))

theorem betweenSides_eq_narrow (start step low high : K) (span : Span K) :
    betweenSides start step low high span = .ok (narrow start step low high span) := by
  have habs : Scalar.abs step = |step| := rfl
  unfold betweenSides narrow
  rw [parallelBound_eq, habs]
  split_ifs with h
  · rfl
  · rfl
  · have hne : step ≠ 0 := by
      rintro rfl
      norm_num at h
    rw [Exact.scalar_divide hne, Exact.scalar_divide hne]
    rfl

theorem hitBox_eq_narrow (ray : Ray K) (box : Box K) :
    ray.hitBox box = .ok (((narrow ray.x ray.dx box.xmin box.xmax Span.whole).bind
      (narrow ray.y ray.dy box.ymin box.ymax)).bind Span.first?) := by
  rw [hitBox, betweenSides_eq_narrow]
  cases narrow ray.x ray.dx box.xmin box.xmax Span.whole with
  | none => rfl
  | some span =>
    show (betweenSides ray.y ray.dy box.ymin box.ymax span >>= _) = _
    rw [betweenSides_eq_narrow, Option.bind_some]
    cases narrow ray.y ray.dy box.ymin box.ymax span <;> rfl

theorem narrow_add (start step low high v : K) :
    narrow (start + v) step (low + v) (high + v) = narrow start step low high := by
  funext span
  simp only [narrow, add_lt_add_iff_right, add_sub_add_right_eq_sub]

theorem narrow_neg (start step low high : K) :
    narrow (-start) (-step) (-high) (-low) = narrow start step low high := by
  funext span
  have hside (side : K) : (-side - -start) / -step = (side - start) / step := by
    rw [neg_sub_neg, ← neg_sub side, neg_div_neg_eq]
  simp only [narrow, abs_neg, neg_lt_neg_iff, hside, or_comm]
  rw [Span.between_comm]

omit [IsStrictOrderedRing K] in
/-- Two parallel sides leave nothing, or all, or what is between two distances. -/
theorem narrow_cases (start step low high : K) :
    narrow start step low high = (fun _ => none) ∨ narrow start step low high = some ∨
      ∃ s t, narrow start step low high = fun span => some (span.between s t) := by
  by_cases hstep : |step| < 1e-8
  · by_cases hout : start < low ∨ high < start
    · exact .inl (funext fun span => by rw [narrow, if_pos hstep, if_pos hout])
    · exact .inr (.inl (funext fun span => by rw [narrow, if_pos hstep, if_neg hout]))
  · exact .inr (.inr ⟨_, _, funext fun span => by rw [narrow, if_neg hstep]⟩)

omit [IsStrictOrderedRing K] in
/-- It makes no difference which pair of sides comes first. -/
theorem narrow_comm (start step low high start' step' low' high' : K) (span : Span K) :
    (narrow start step low high span).bind (narrow start' step' low' high') =
      (narrow start' step' low' high' span).bind (narrow start step low high) := by
  rcases narrow_cases start step low high with h | h | ⟨s, t, h⟩ <;>
    rcases narrow_cases start' step' low' high' with h' | h' | ⟨u, v, h'⟩ <;>
    simp only [h, h', Option.bind_some, Option.bind_none]
  rw [span.between_right_comm]

theorem hitBox_image (g : Symmetry K) (ray : Ray K) (box : Box K) :
    (g.ray ray).hitBox (g.box box) = ray.hitBox box := by
  rw [hitBox_eq_narrow, hitBox_eq_narrow]
  cases g with
  | shift dx dy => simp only [Symmetry.ray, Symmetry.box, narrow_add]
  | quarterTurn => simp only [Symmetry.ray, Symmetry.box, narrow_neg, narrow_comm ray.y]
  | mirror => simp only [Symmetry.ray, Symmetry.box, narrow_neg]

theorem box_around_image (g : Symmetry K) (x y width height : K) :
    ∃ x' y' width' height',
      g.obstacle (.rectangle x y width height) = .rectangle x' y' width' height' ∧
        Box.around x' y' width' height' = g.box (Box.around x y width height) := by
  cases g <;> refine ⟨_, _, _, _, rfl, ?_⟩ <;>
    simp only [Symmetry.box, box_around_eq, Box.mk.injEq, true_and, and_true]
  case shift => exact ⟨by ring, by ring, by ring, by ring⟩
  case quarterTurn => exact ⟨by ring, by ring⟩
  case mirror => exact ⟨by ring, by ring⟩

omit [IsStrictOrderedRing K] in
/-- Of a circle a ray is told what depends on where its centre is seen from the ray. -/
theorem hitCircle_congr {ray ray' : Ray K} {x y x' y' : K}
    (hlong : ray'.along x' y' = ray.along x y)
    (hcross : ray'.across x' y' = ray.across x y) (radius : K) :
    ray'.hitCircle x' y' radius = ray.hitCircle x y radius := by
  have hin (ray : Ray K) (x y : K) : ray.hitCircle x y radius =
      if radius * radius < ray.across x y then .ok none
      else Scalar.squareRoot (Scalar.greatest (radius * radius - ray.across x y) 0.0) >>= fun half =>
        .ok (if 0.0 < ray.along x y - half then some (ray.along x y - half)
          else if 0.0 < ray.along x y + half then some (ray.along x y + half) else none) := rfl
  rw [hin, hin, hlong, hcross]

omit [LinearOrder K] [Exact K] [IsStrictOrderedRing K] in
theorem along_image (g : Symmetry K) (ray : Ray K) (x y : K) :
    ∃ x' y', (∀ radius, g.obstacle (.circle x y radius) = .circle x' y' radius) ∧
      (g.ray ray).along x' y' = ray.along x y ∧ (g.ray ray).across x' y' = ray.across x y := by
  cases g <;>
  · refine ⟨_, _, fun _ => rfl, ?_, ?_⟩
    · simp only [Symmetry.ray, along]
      ring
    · simp only [Symmetry.ray, across, along]
      ring

/-- A ray and an obstacle that follow the same symmetry meet as before. -/
theorem hit_image (g : Symmetry K) (ray : Ray K) (o : Obstacle K) :
    (g.ray ray).hit (g.obstacle o) = ray.hit o := by
  cases o with
  | missing => cases g <;> rfl
  | rectangle x y width height =>
    obtain ⟨x', y', width', height', ho, hbox⟩ := box_around_image g x y width height
    rw [ho, hit, hbox, hitBox_image]
    rfl
  | circle x y radius =>
    obtain ⟨x', y', ho, hlong, hcross⟩ := along_image g ray x y
    rw [ho]
    exact hitCircle_congr hlong hcross radius

end Ray

namespace Sensor

variable [IsStrictOrderedRing K] {pose : Pose K} {obstacles : List (Obstacle K)} {fov range : K}

theorem nearestHit_image (g : Symmetry K) (ray : Ray K) (obstacles : List (Obstacle K))
    (distance : K) :
    nearestHit (g.ray ray) (obstacles.map g.obstacle) distance =
      nearestHit ray obstacles distance := by
  induction obstacles generalizing distance with
  | nil => rfl
  | cons o rest ih => simp only [List.map_cons, nearestHit, ray.hit_image, ih]

variable [Exact.QuarterTurns K]

theorem front_image (g : Symmetry K) :
    front (obstacles.map g.obstacle) (g.pose pose) range = front obstacles pose range := by
  have hray : nearestHit (g.pose pose).ahead (obstacles.map g.obstacle) range =
      nearestHit pose.ahead obstacles range := by
    rw [g.ahead_pose, nearestHit_image]
  have hbeam (xs : List (Obstacle K)) (p : Pose K) : front xs p range =
      if range < 0.0 then .error (.negativeRange range)
      else nearestHit p.ahead xs range >>= fun distance =>
        .ok (Scalar.greatest 0.0 (Scalar.least distance range)) := rfl
  rw [hbeam, hbeam, hray]

omit [Exact.QuarterTurns K] in
/-- The fan of the image has the images of the headings. -/
theorem fanAngles_image (g : Symmetry K) {n : ℕ} (hn : 2 ≤ n) (theta fov : K) :
    fanAngles (g.heading theta) fov n = g.order ((fanAngles theta fov n).map g.heading) := by
  cases g with
  | shift dx dy => exact (List.map_id _).symm
  | quarterTurn =>
    show fanAngles (theta + Exact.pi / 2.0) fov n =
      (fanAngles theta fov n).map (· + Exact.pi / 2.0)
    rw [fanAngles_eq_map, fanAngles_eq_map, List.map_map]
    refine List.map_congr_left fun i _ => ?_
    exact add_right_comm _ _ _
  | mirror =>
    show fanAngles (-theta) fov n = ((fanAngles theta fov n).map (-·)).reverse
    rw [← List.map_reverse, fanAngles_reverse _ _ hn, fanAngles_eq_map, fanAngles_eq_map,
      List.map_map, List.map_map]
    refine List.map_congr_left fun i _ => ?_
    simp only [Function.comp_apply, fanAngle_eq]
    ring

theorem scan_image (g : Symmetry K) {n : ℕ} (hn : 1 ≤ n) {readings : List K}
    (h : scan obstacles pose ⟨n, fov, range⟩ = .ok readings) :
    scan (obstacles.map g.obstacle) (g.pose pose) ⟨n, fov, range⟩ = .ok (g.order readings) := by
  rcases hn.eq_or_lt with rfl | hn
  · obtain ⟨r, hr, rfl⟩ := scan_one_eq_ok_iff.1 h
    exact scan_one_eq_ok_iff.2 ⟨r, by rw [front_image, hr], by cases g <;> rfl⟩
  · rw [scan_eq_ok_iff hn] at h ⊢
    rw [g.theta_pose, fanAngles_image g hn, g.map_order, g.map_order, List.map_map, ← h]
    refine congrArg g.order (List.map_congr_left fun a _ => ?_)
    show front _ ((g.pose pose).facing (g.heading a)) range = _
    rw [g.facing_heading, front_image]

end Sensor

/-- In a world of circles and rectangles a scan has readings. They stay the same when the rover and
all obstacles are shifted together or turned together by a quarter of a turn, and come in reverse in
the mirror image. -/
theorem scan_follows_symmetry [IsStrictOrderedRing K] [Exact.QuarterTurns K]
    {obstacles : List (Obstacle K)} (pose : Pose K) {lidar : Lidar K}
    (hshapes : .missing ∉ obstacles) (hbeams : 1 ≤ lidar.beams) (hrange : 0 ≤ lidar.range) :
    ∃ readings, Sensor.scan obstacles pose lidar = .ok readings ∧
      (∀ dx dy, Sensor.scan (obstacles.map (Symmetry.shift dx dy).obstacle)
        ((Symmetry.shift dx dy).pose pose) lidar = .ok readings) ∧
      Sensor.scan (obstacles.map Symmetry.quarterTurn.obstacle)
        (Symmetry.quarterTurn.pose pose) lidar = .ok readings ∧
      Sensor.scan (obstacles.map Symmetry.mirror.obstacle)
        (Symmetry.mirror.pose pose) lidar = .ok readings.reverse := by
  obtain ⟨beams, fov, range⟩ := lidar
  obtain ⟨n, rfl⟩ := Int.eq_ofNat_of_zero_le (zero_le_one.trans hbeams)
  have hn : 1 ≤ n := Int.ofNat_le.1 hbeams
  obtain ⟨readings, hreadings⟩ := Sensor.exists_scan hshapes pose fov hrange hn
  exact ⟨readings, hreadings, fun dx dy => Sensor.scan_image (.shift dx dy) hn hreadings,
    Sensor.scan_image .quarterTurn hn hreadings, Sensor.scan_image .mirror hn hreadings⟩

/-- A disc to the left of the origin and a wall to the right of it. -/
def lane : List (Obstacle ℝ) :=
  leftDisc ++ [.rectangle 0 (-3.0) 4.0 2.0]

/-- The wall of the lane is read to the right only. -/
theorem front_wall :
    Sensor.front [.rectangle 0 (-3) 4 2] ⟨0, 0, Real.pi / 2⟩ (5 : ℝ) = .ok 5 ∧
      Sensor.front [.rectangle 0 (-3) 4 2] ⟨0, 0, 0⟩ (5 : ℝ) = .ok 5 ∧
      Sensor.front [.rectangle 0 (-3) 4 2] ⟨0, 0, -(Real.pi / 2)⟩ (5 : ℝ) = .ok 2 := by
  have hbeam (a : ℝ) (hit : Option ℝ) (r : ℝ)
      (hhit : (⟨0, 0, Real.cos a, Real.sin a⟩ : Ray ℝ).hitBox ⟨-2, -4, 2, -2⟩ = .ok hit)
      (hr : Sensor.nearer 5 hit = r) :
      Sensor.front [.rectangle 0 (-3) 4 2] ⟨0, 0, a⟩ 5 = .ok r := by
    have hbox : Box.around (0 : ℝ) (-3) 4 2 = ⟨-2, -4, 2, -2⟩ := by
      rw [Ray.box_around_eq]
      norm_num
    rw [← hbox] at hhit
    rw [← hr]
    exact Sensor.front_singleton hhit (by norm_num)
  have hspan (s t : ℝ) : Span.whole.between s t = ⟨some (min s t), some (max s t)⟩ := by
    rw [← Exact.scalar_least, ← Exact.scalar_greatest]
    rfl
  refine ⟨hbeam _ none _ ?_ rfl, hbeam _ none _ ?_ rfl, hbeam _ (some 2) _ ?_ ?_⟩
  · rw [Real.cos_pi_div_two, Real.sin_pi_div_two, Ray.hitBox_eq_narrow]
    norm_num [Ray.narrow, hspan, Span.first?_of_bounds]
  · rw [Real.cos_zero, Real.sin_zero, Ray.hitBox_eq_narrow]
    norm_num [Ray.narrow]
  · rw [Real.cos_neg, Real.sin_neg, Real.cos_pi_div_two, Real.sin_pi_div_two,
      Ray.hitBox_eq_narrow]
    norm_num [Ray.narrow, hspan, Span.first?_of_bounds]
  · norm_num [Sensor.nearer]

theorem scan_lane : Sensor.scan lane ⟨0, 0, 0⟩ ⟨3, 180, 5⟩ = .ok [1, 5, 2] := by
  have hangles : Sensor.fanAngles 0 (180 : ℝ) 3 = [Real.pi / 2, 0, -(Real.pi / 2)] := by
    have hpi : Scalar.radians (180 : ℝ) = Real.pi := by
      rw [Exact.scalar_radians, mul_div_cancel_left₀ _ (by norm_num)]
      rfl
    rw [Sensor.fanAngles_eq_map]
    norm_num [List.range_succ, Sensor.fanAngle, hpi]
    ring
  have hrange : (0 : ℝ) ≤ 5 := by norm_num
  obtain ⟨hleft, hahead, hright⟩ := front_leftDisc
  obtain ⟨hleft', hahead', hright'⟩ := front_wall
  have hlane : lane = leftDisc ++ [.rectangle 0 (-3) 4 2] := by norm_num [lane]
  refine (Sensor.scan_eq_ok_iff (show 2 ≤ 3 by norm_num)).2 ?_
  rw [hangles]
  simp only [List.map_cons, List.map_nil, Pose.facing, hlane,
    Sensor.front_append hrange hleft hleft', Sensor.front_append hrange hahead hahead',
    Sensor.front_append hrange hright hright']
  norm_num

theorem scan_follows_symmetry_lane :
    Sensor.scan [.circle 1 3 1, .rectangle 1 (-2) 4 2] ⟨1, 1, 0⟩ (⟨3, 180, 5⟩ : Lidar ℝ) =
        .ok [1, 5, 2] ∧
      Sensor.scan [.circle (-2) 0 1, .rectangle 3 0 2 4] ⟨0, 0, Real.pi / 2⟩
        (⟨3, 180, 5⟩ : Lidar ℝ) = .ok [1, 5, 2] ∧
      Sensor.scan [.circle 0 (-2) 1, .rectangle 0 3 4 2] ⟨0, 0, 0⟩ (⟨3, 180, 5⟩ : Lidar ℝ) =
        .ok [2, 5, 1] := by
  have hshapes : .missing ∉ lane := by simp [lane, leftDisc]
  have hbeams : 1 ≤ (⟨3, 180, 5⟩ : Lidar ℝ).beams := by norm_num
  obtain ⟨readings, hreadings, hshift, hturn, hmirror⟩ :=
    scan_follows_symmetry ⟨0, 0, 0⟩ hshapes hbeams (by norm_num)
  have hlane := scan_lane
  rw [hreadings, Except.ok.injEq] at hlane
  subst hlane
  have hshift := hshift 1 1
  norm_num [lane, leftDisc, Symmetry.obstacle, Symmetry.pose] at hshift hturn hmirror
  exact ⟨hshift, hturn, hmirror⟩

end PlanarDrive
