import PlanarDrive.Proofs.Fallible
import PlanarDrive.Proofs.NearestHit

/-!
# The fan of beams of a scan

In exact numbers the beams of a scan divide the field of view evenly, from its left edge to its
right edge, and each of them reads what the sensor would read straight ahead at that heading. So
laws about scans are laws about headings: a field of view taken the other way round has the same
headings in reverse, an odd fan looks straight ahead in its middle, and every other heading of a
fan with one more beam in each gap is a heading of the fan itself.
-/

namespace PlanarDrive

variable {K : Type} [Field K] [LinearOrder K] [Exact K]

def Pose.facing (pose : Pose K) (angle : K) : Pose K :=
  ⟨pose.x, pose.y, angle⟩

namespace Sensor

variable {n : ℕ}

/-- The heading of a beam, which is a share of the field of view away from the left edge. -/
def fanAngle (theta fov : K) (n i : ℕ) : K :=
  theta + Scalar.radians fov * (0.5 - i / (n - 1 : ℕ))

section Headings

variable [IsStrictOrderedRing K] (theta fov : K)

theorem fanAngle_eq (n i : ℕ) :
    fanAngle theta fov n i = theta + Scalar.radians fov * (1 / 2 - i / (n - 1 : ℕ)) := by
  have hhalf : (0.5 : K) = 1 / 2 := by norm_num
  rw [fanAngle, hhalf]

theorem fanAngles_eq_map (n : ℕ) :
    fanAngles theta fov n = (List.range n).map (fanAngle theta fov n) := by
  have htwo : (2.0 : K) = 2 := by norm_num
  refine List.map_congr_left fun i _ => ?_
  show theta + Scalar.radians fov / (2.0 : K) + i * (-Scalar.radians fov / (n - 1 : ℕ)) = _
  rw [htwo, fanAngle_eq]
  ring

theorem fanAngle_zero (n : ℕ) : fanAngle theta fov n 0 = theta + Scalar.radians fov / 2 := by
  rw [fanAngle_eq, Nat.cast_zero, zero_div]
  ring

theorem fanAngle_last (hn : 2 ≤ n) :
    fanAngle theta fov n (n - 1) = theta - Scalar.radians fov / 2 := by
  have hgaps : ((n - 1 : ℕ) : K) ≠ 0 := Nat.cast_ne_zero.2 (by omega)
  rw [fanAngle_eq, div_self hgaps]
  ring

theorem fanAngle_middle {m : ℕ} (hm : 1 ≤ m) : fanAngle theta fov (2 * m + 1) m = theta := by
  have hm' : (m : K) ≠ 0 := Nat.cast_ne_zero.2 (by omega)
  rw [fanAngle_eq, Nat.add_sub_cancel, Nat.cast_mul, Nat.cast_ofNat, div_mul_cancel_right₀ hm']
  ring

/-- A fan with one more beam in each gap keeps the headings of the others. -/
theorem fanAngle_finer (n i : ℕ) :
    fanAngle theta fov (2 * n - 1) (2 * i) = fanAngle theta fov n i := by
  have hgaps : 2 * n - 1 - 1 = 2 * (n - 1) := by omega
  rw [fanAngle_eq, hgaps, Nat.cast_mul, Nat.cast_mul, Nat.cast_ofNat,
    mul_div_mul_left _ _ two_ne_zero, fanAngle_eq]

theorem fanAngle_mirror (hn : 2 ≤ n) {i : ℕ} (hi : i < n) :
    fanAngle theta fov n (n - 1 - i) = 2 * theta - fanAngle theta fov n i := by
  have hgaps : ((n - 1 : ℕ) : K) ≠ 0 := Nat.cast_ne_zero.2 (by omega)
  rw [fanAngle_eq, fanAngle_eq, Nat.cast_sub (by omega), sub_div, div_self hgaps]
  ring

theorem fanAngles_reverse (hn : 2 ≤ n) :
    (fanAngles theta fov n).reverse = (fanAngles theta fov n).map (2 * theta - ·) := by
  rw [fanAngles_eq_map, ← List.map_reverse, List.range_eq_range', List.reverse_range',
    ← List.range_eq_range', List.map_map, List.map_map]
  refine List.map_congr_left fun i hi => ?_
  rw [Function.comp_apply, zero_add, fanAngle_mirror theta fov hn (List.mem_range.1 hi)]
  rfl

theorem fanAngles_neg (hn : 2 ≤ n) :
    fanAngles theta (-fov) n = (fanAngles theta fov n).reverse := by
  have hneg : Scalar.radians (-fov) = -Scalar.radians fov := by
    rw [Exact.scalar_radians, Exact.scalar_radians]
    ring
  rw [fanAngles_reverse theta fov hn, fanAngles_eq_map, fanAngles_eq_map, List.map_map]
  refine List.map_congr_left fun i _ => ?_
  show fanAngle theta (-fov) n i = 2 * theta - fanAngle theta fov n i
  rw [fanAngle_eq, fanAngle_eq, hneg]
  ring

end Headings

variable {obstacles : List (Obstacle K)} {pose : Pose K} {fov range : K}

theorem scan_one_eq_ok_iff {readings : List K} :
    scan obstacles pose ⟨1, fov, range⟩ = .ok readings ↔
      ∃ r, front obstacles pose range = .ok r ∧ readings = [r] := by
  show (front obstacles pose range).map ([·]) = _ ↔ _
  cases front obstacles pose range <;> simp [Except.map, eq_comm]

theorem scan_of_two_le (hn : 2 ≤ n) :
    scan obstacles pose ⟨n, fov, range⟩ =
      (fanAngles pose.theta fov n).mapM fun angle => front obstacles (pose.facing angle) range := by
  rw [scan, if_neg (show ¬ (n : ℤ) < 1 by omega), if_neg (show (n : ℤ) ≠ 1 by omega)]
  rfl

/-- A scan reads, beam by beam, what the sensor reads straight ahead. -/
theorem scan_eq_ok_iff (hn : 2 ≤ n) {readings : List K} :
    scan obstacles pose ⟨n, fov, range⟩ = .ok readings ↔
      (fanAngles pose.theta fov n).map (fun angle => front obstacles (pose.facing angle) range) =
        readings.map .ok := by
  rw [scan_of_two_le hn, mapM_eq_ok_iff]

variable [IsStrictOrderedRing K]

theorem exists_scan (h : .missing ∉ obstacles) (pose : Pose K) (fov : K) (hrange : 0 ≤ range)
    (hn : 1 ≤ n) : ∃ readings, scan obstacles pose ⟨n, fov, range⟩ = .ok readings := by
  have hfront (p : Pose K) : ∃ r, front obstacles p range = .ok r := by
    obtain ⟨r, hr, -⟩ := front_isLeast p hrange h
    exact ⟨r, hr⟩
  rcases hn.eq_or_lt with rfl | hn
  · obtain ⟨r, hr⟩ := hfront pose
    exact ⟨[r], scan_one_eq_ok_iff.2 ⟨r, hr, rfl⟩⟩
  · rw [scan_of_two_le hn]
    exact exists_mapM_eq_ok fun angle _ => hfront (pose.facing angle)

section Scanned

variable (hn : 2 ≤ n) {readings : List K}
  (h : scan obstacles pose ⟨n, fov, range⟩ = .ok readings)
include hn h

theorem length_of_scan : readings.length = n := by
  have hlength := congrArg List.length ((scan_eq_ok_iff hn).1 h)
  rw [fanAngles_eq_map] at hlength
  simpa using hlength.symm

theorem getElem?_of_scan {i : ℕ} (hi : i < n) :
    readings[i]?.map .ok =
      some (front obstacles (pose.facing (fanAngle pose.theta fov n i)) range) := by
  rw [← List.getElem?_map, ← (scan_eq_ok_iff hn).1 h, fanAngles_eq_map, List.getElem?_map,
    List.getElem?_map, List.getElem?_range hi]
  rfl

theorem scan_neg : scan obstacles pose ⟨n, -fov, range⟩ = .ok readings.reverse := by
  rw [scan_eq_ok_iff hn, fanAngles_neg _ _ hn, List.map_reverse, (scan_eq_ok_iff hn).1 h,
    List.map_reverse]

/-- Every other beam of a fan with one more beam in each gap is a beam of the fan itself. -/
theorem getElem?_of_finer {fine : List K}
    (hfine : scan obstacles pose ⟨(2 * n - 1 : ℕ), fov, range⟩ = .ok fine) (i : ℕ) :
    fine[2 * i]? = readings[i]? := by
  have hn' : 2 ≤ 2 * n - 1 := by omega
  by_cases hi : i < n
  · have hcoarse := getElem?_of_scan hn h hi
    rw [← fanAngle_finer, ← getElem?_of_scan hn' hfine (by omega)] at hcoarse
    exact Option.map_injective (fun _ _ => Except.ok.inj) hcoarse.symm
  · rw [List.getElem?_eq_none (by rw [length_of_scan hn' hfine]; omega),
      List.getElem?_eq_none (by rw [length_of_scan hn h]; omega)]

end Scanned

theorem scan_of_missing (h : .missing ∈ obstacles) (hrange : 0 ≤ range) (hn : 1 ≤ n) :
    scan obstacles pose ⟨n, fov, range⟩ = .error .unsupportedObstacle := by
  have hfront (p : Pose K) : front obstacles p range = .error .unsupportedObstacle :=
    front_of_missing hrange h
  rcases hn.eq_or_lt with rfl | hn
  · show (front obstacles pose range).map ([·]) = _
    rw [hfront]
    rfl
  · obtain ⟨m, rfl⟩ := Nat.exists_eq_add_of_lt hn
    rw [scan_of_two_le hn, fanAngles_eq_map, List.range_succ_eq_map, List.map_cons,
      List.mapM_cons, hfront]
    rfl

end Sensor

/-- A scan of two beams or more reads at the left edge of its field of view first and at the right
edge last. The negated field of view gives the readings in reverse, an odd number of beams looks
straight ahead in the middle, and one more beam in each gap leaves the readings in between as they
are. A single beam looks straight ahead whatever the field of view. An obstacle that no ray can be
cast past is refused by every scan. -/
theorem scan_is_fan_of_fronts [IsStrictOrderedRing K] (obstacles : List (Obstacle K))
    (pose : Pose K) {range : K} (hrange : 0 ≤ range) :
    (.missing ∉ obstacles →
      (∀ (n : ℕ) (fov : K), 2 ≤ n → ∃ readings,
        Sensor.scan obstacles pose ⟨n, fov, range⟩ = .ok readings ∧ readings.length = n ∧
        readings.head?.map .ok = some
          (Sensor.front obstacles (pose.facing (pose.theta + Scalar.radians fov / 2)) range) ∧
        readings.getLast?.map .ok = some
          (Sensor.front obstacles (pose.facing (pose.theta - Scalar.radians fov / 2)) range) ∧
        Sensor.scan obstacles pose ⟨n, -fov, range⟩ = .ok readings.reverse ∧
        (∀ m, n = 2 * m + 1 →
          readings[m]?.map .ok = some (Sensor.front obstacles pose range)) ∧
        ∃ fine, Sensor.scan obstacles pose ⟨2 * n - 1, fov, range⟩ = .ok fine ∧
          ∀ i : ℕ, fine[2 * i]? = readings[i]?) ∧
      ∃ r, Sensor.front obstacles pose range = .ok r ∧
        ∀ fov, Sensor.scan obstacles pose ⟨1, fov, range⟩ = .ok [r]) ∧
    (.missing ∈ obstacles → ∀ (n : ℕ) (fov : K), 1 ≤ n →
      Sensor.scan obstacles pose ⟨n, fov, range⟩ = .error .unsupportedObstacle) := by
  refine ⟨fun h => ⟨fun n fov hn => ?several, ?single⟩,
    fun h n fov hn => Sensor.scan_of_missing h hrange hn⟩
  case several =>
    obtain ⟨readings, hreadings⟩ := Sensor.exists_scan h pose fov hrange (one_le_two.trans hn)
    have hlength := Sensor.length_of_scan hn hreadings
    refine ⟨readings, hreadings, hlength, ?first, ?last, Sensor.scan_neg hn hreadings,
      ?middle, ?finer⟩
    case first =>
      rw [List.head?_eq_getElem?, Sensor.getElem?_of_scan hn hreadings (by omega),
        Sensor.fanAngle_zero]
    case last =>
      rw [List.getLast?_eq_getElem?, hlength, Sensor.getElem?_of_scan hn hreadings (by omega),
        Sensor.fanAngle_last _ _ hn]
    case middle =>
      rintro m rfl
      rw [Sensor.getElem?_of_scan hn hreadings (by omega), Sensor.fanAngle_middle _ _ (by omega)]
      rfl
    case finer =>
      have hcount : (2 * (n : ℤ) - 1) = ((2 * n - 1 : ℕ) : ℤ) := by omega
      obtain ⟨fine, hfine⟩ := Sensor.exists_scan h pose fov hrange
        (show 1 ≤ 2 * n - 1 by omega)
      rw [hcount]
      exact ⟨fine, hfine, Sensor.getElem?_of_finer hn hreadings hfine⟩
  case single =>
    obtain ⟨r, hr, -⟩ := Sensor.front_isLeast pose hrange h
    exact ⟨r, hr, fun fov => Sensor.scan_one_eq_ok_iff.2 ⟨r, hr, rfl⟩⟩

def leftDisc : List (Obstacle ℝ) :=
  [.circle 0 2.0 1]

/-- The disc is read to the left, and nothing is read ahead or to the right. -/
theorem front_leftDisc :
    Sensor.front leftDisc ⟨0, 0, Real.pi / 2⟩ 5 = .ok 1 ∧
      Sensor.front leftDisc ⟨0, 0, 0⟩ 5 = .ok 5 ∧
      Sensor.front leftDisc ⟨0, 0, -(Real.pi / 2)⟩ 5 = .ok 5 := by
  have hahead (a : ℝ) : (⟨0, 0, a⟩ : Pose ℝ).ahead = ⟨0, 0, Real.cos a, Real.sin a⟩ := rfl
  have htwo : (2.0 : ℝ) = 2 := by norm_num
  have halong (dx dy : ℝ) : (⟨0, 0, dx, dy⟩ : Ray ℝ).along 0 2 = 2 * dy := by simp [Ray.along]
  have hacross (dx dy : ℝ) : (⟨0, 0, dx, dy⟩ : Ray ℝ).across 0 2 = 4 - 4 * dy ^ 2 := by
    rw [Ray.across, halong]
    ring
  have hhalf (dx dy : ℝ) (hdy : dy ^ 2 = 1) : (⟨0, 0, dx, dy⟩ : Ray ℝ).half 0 2 1 = 1 := by
    rw [Ray.half, hacross, hdy]
    norm_num
    exact Real.sqrt_one
  have hbeam (a : ℝ) (hit : Option ℝ) (r : ℝ)
      (hhit : (⟨0, 0, Real.cos a, Real.sin a⟩ : Ray ℝ).hit (.circle 0 2 1) = .ok hit)
      (hr : Sensor.nearer 5 hit = r) : Sensor.front leftDisc ⟨0, 0, a⟩ 5 = .ok r := by
    rw [← hr, leftDisc, htwo]
    exact Sensor.front_singleton (by rw [hahead, hhit]) (by norm_num)
  refine ⟨hbeam _ (some 1) _ ?_ ?_, hbeam _ none _ ?_ rfl, hbeam _ none _ ?_ rfl⟩
  · rw [Real.sin_pi_div_two, Ray.hit, Ray.hitCircle_of_le (by rw [hacross]; norm_num), halong,
      hhalf _ _ (by norm_num)]
    norm_num
  · norm_num [Sensor.nearer]
  · rw [Real.sin_zero, Ray.hit, Ray.hitCircle_of_lt (by rw [hacross]; norm_num)]
  · rw [Real.sin_neg, Real.sin_pi_div_two, Ray.hit,
      Ray.hitCircle_of_le (by rw [hacross]; norm_num), halong, hhalf _ _ (by norm_num)]
    norm_num

theorem scan_is_fan_of_fronts_leftDisc :
    Sensor.scan leftDisc ⟨0, 0, 0⟩ ⟨3, 180, 5⟩ = .ok [1, 5, 5] ∧
      Sensor.scan leftDisc ⟨0, 0, 0⟩ ⟨3, -180, 5⟩ = .ok [5, 5, 1] ∧
      Sensor.scan leftDisc ⟨0, 0, 0⟩ ⟨1, 180, 5⟩ = .ok [5] ∧
      Sensor.scan (leftDisc ++ [.missing]) ⟨0, 0, 0⟩ ⟨3, 180, 5⟩ = .error .unsupportedObstacle := by
  obtain ⟨hleft, hahead, hright⟩ := front_leftDisc
  have hrange : (0 : ℝ) ≤ 5 := by norm_num
  have hangle : Scalar.radians (180 : ℝ) / 2 = Real.pi / 2 := by
    rw [Exact.scalar_radians, mul_div_cancel_left₀ _ (by norm_num)]
    rfl
  obtain ⟨hfan, -⟩ := scan_is_fan_of_fronts leftDisc ⟨0, 0, 0⟩ hrange
  obtain ⟨-, hrefused⟩ := scan_is_fan_of_fronts (leftDisc ++ [.missing]) ⟨0, 0, 0⟩ hrange
  obtain ⟨hseveral, r, hr, hone⟩ := hfan (by simp [leftDisc])
  obtain ⟨readings, hscan, hlength, hfirst, hlast, hneg, hmiddle, -⟩ := hseveral 3 180 (by norm_num)
  have hreadings : readings = [1, 5, 5] := by
    obtain ⟨a, b, c, rfl⟩ := List.length_eq_three.1 hlength
    rw [hangle, zero_add, Pose.facing, hleft] at hfirst
    rw [hangle, zero_sub, Pose.facing, hright] at hlast
    have hmiddle := hmiddle 1 rfl
    rw [hahead] at hmiddle
    simp only [List.head?_cons, List.getLast?_cons_cons, List.getLast?_singleton,
      List.getElem?_cons_succ, List.getElem?_cons_zero, Option.map_some, Option.some.injEq,
      Except.ok.injEq] at hfirst hlast hmiddle
    rw [hfirst, hlast, hmiddle]
  subst hreadings
  rw [hahead, Except.ok.injEq] at hr
  subst hr
  exact ⟨hscan, hneg, hone 180, hrefused (by simp) 3 180 (by norm_num)⟩

end PlanarDrive
