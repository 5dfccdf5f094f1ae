import PlanarDrive.Proofs.BinaryOrder
import PlanarDrive.Sensor

/-!
# A reading lies within the range

Shapes may be degenerate: of no extent or a negative one, infinite, or with sides that are no
number. A ray is still told a distance or none, for no divisor is zero and no root is taken below
zero, and what it is told is not behind its start. A reading is cut off at the range, so it is a
number from zero up to the range whatever the arithmetic yields.
-/

namespace PlanarDrive

variable {α : Type} [Scalar α] [Scalar.OrdersNumbers α]

theorem Span.not_behind_of_first? {span : Span α} {t : α} (h : t ∈ span.first?) : ¬ t < 0.0 := by
  unfold first? at h
  split at h
  · cases h
  · next hpast =>
    split at h
    · next near hnear =>
      cases h
      have hpos := (Option.filter_eq_some_iff.1 hnear).2
      exact Scalar.not_lt_of_le (Scalar.le_of_lt (of_decide_eq_true hpos))
    · intro hneg
      obtain ⟨hleave, -⟩ := Option.filter_eq_some_iff.1 h
      exact hpast (by simp [isPast, hleave, hneg])

namespace Ray

theorem betweenSides_ok (start step low high : α) (span : Span α) :
    ∃ narrowed, betweenSides start step low high span = .ok narrowed := by
  unfold betweenSides
  split
  · exact ⟨_, rfl⟩
  · next h => exact ⟨_, by rw [Scalar.divide_ok h, Scalar.divide_ok h]; rfl⟩

theorem hitBox_ok (ray : Ray α) (box : Box α) :
    ∃ hit, ray.hitBox box = .ok hit ∧ ∀ t ∈ hit, ¬ t < 0.0 := by
  obtain ⟨across, hacross⟩ := betweenSides_ok ray.x ray.dx box.xmin box.xmax Span.whole
  unfold hitBox
  rw [hacross]
  cases across with
  | none => exact ⟨none, rfl, by simp⟩
  | some span =>
    obtain ⟨both, hboth⟩ := betweenSides_ok ray.y ray.dy box.ymin box.ymax span
    refine ⟨both.bind Span.first?, ?_, fun t ht => ?_⟩
    · change (betweenSides ray.y ray.dy box.ymin box.ymax span >>= _) = _
      rw [hboth]
      cases both <;> rfl
    · obtain ⟨last, -, hfirst⟩ := Option.mem_bind_iff.1 ht
      exact Span.not_behind_of_first? hfirst

theorem hitCircle_ok (ray : Ray α) (x y radius : α) :
    ∃ hit, ray.hitCircle x y radius = .ok hit ∧ ∀ t ∈ hit, ¬ t < 0.0 := by
  have hpos {t : α} (h : 0.0 < t) : ¬ t < 0.0 := Scalar.not_lt_of_le (Scalar.le_of_lt h)
  unfold hitCircle
  dsimp only
  split
  · exact ⟨none, rfl, by simp⟩
  · rw [Scalar.squareRoot_greatest_ok]
    refine ⟨_, rfl, fun t ht => ?_⟩
    split_ifs at ht with hnear hfar
    · cases ht
      exact hpos hnear
    · cases ht
      exact hpos hfar
    · cases ht

/-- Every ray is told a distance to an obstacle, or none, and not one behind its start. -/
theorem hit_ok (ray : Ray α) {o : Obstacle α} (h : o ≠ .missing) :
    ∃ hit, ray.hit o = .ok hit ∧ ∀ t ∈ hit, ¬ t < 0.0 := by
  cases o with
  | circle x y radius => exact ray.hitCircle_ok x y radius
  | rectangle x y width height => exact ray.hitBox_ok _
  | missing => exact absurd rfl h

end Ray

namespace Sensor

theorem nearestHit_ok (ray : Ray α) {obstacles : List (Obstacle α)} (h : .missing ∉ obstacles)
    (distance : α) : ∃ nearest, nearestHit ray obstacles distance = .ok nearest := by
  induction obstacles generalizing distance with
  | nil => exact ⟨distance, rfl⟩
  | cons o rest ih =>
    rw [List.mem_cons, not_or] at h
    obtain ⟨hit, hhit, -⟩ := ray.hit_ok (Ne.symm h.1)
    rw [nearestHit, hhit]
    exact ih h.2 (nearer distance hit)

/-- What is cut off at zero and at a range is a number between them, even of what is no number. -/
theorem cut_within {range : α} (hrange : 0.0 ≤ range) (distance : α) :
    Scalar.isNaN (Scalar.greatest 0.0 (Scalar.least distance range)) = false ∧
      0.0 ≤ Scalar.greatest 0.0 (Scalar.least distance range) ∧
      Scalar.greatest 0.0 (Scalar.least distance range) ≤ range := by
  obtain ⟨hzero, hnumber⟩ := Scalar.OrdersNumbers.isNaN_of_le hrange
  by_cases hpos : 0.0 < Scalar.least distance range
  · have hcut : Scalar.greatest 0.0 (Scalar.least distance range) = Scalar.least distance range :=
      if_pos hpos
    have hle := Scalar.le_of_lt hpos
    have hleast := (Scalar.OrdersNumbers.isNaN_of_le hle).2
    rw [hcut]
    refine ⟨hleast, hle, ?_⟩
    unfold Scalar.least at hleast ⊢
    split_ifs at hleast ⊢ with hfar
    · exact Scalar.le_self hnumber
    · exact Scalar.le_of_not_lt hleast hnumber hfar
  · have hcut : Scalar.greatest 0.0 (Scalar.least distance range) = 0.0 := if_neg hpos
    rw [hcut]
    exact ⟨hzero, Scalar.le_self hzero, hrange⟩

theorem beam_eq {obstacles : List (Obstacle α)} {x y angle range : α} (hrange : 0.0 ≤ range)
    (hangle : Scalar.isInfinite angle = false) :
    beam obstacles x y angle range =
      (nearestHit ⟨x, y, Scalar.cos angle, Scalar.sin angle⟩ obstacles range).map
        fun distance => Scalar.greatest 0.0 (Scalar.least distance range) := by
  have hdirection : Scalar.direction angle = .ok (Scalar.cos angle, Scalar.sin angle) :=
    if_neg (by simp [hangle])
  rw [beam, if_neg (Scalar.not_lt_of_le hrange), hdirection]
  change (nearestHit ⟨x, y, Scalar.cos angle, Scalar.sin angle⟩ obstacles range >>= _) = _
  cases nearestHit (⟨x, y, Scalar.cos angle, Scalar.sin angle⟩ : Ray α) obstacles range <;> rfl

end Sensor

/-- Circles and rectangles may have any fields and the rover any position: unless the heading is
infinite, the reading straight ahead exists, and it is a number from zero up to the range. -/
theorem front_lies_within_range {obstacles : List (Obstacle α)} {pose : Pose α} {range : α}
    (hshapes : .missing ∉ obstacles) (hheading : Scalar.isInfinite pose.theta = false)
    (hrange : 0.0 ≤ range) :
    ∃ reading, Sensor.front obstacles pose range = .ok reading ∧
      Scalar.isNaN reading = false ∧ 0.0 ≤ reading ∧ reading ≤ range := by
  obtain ⟨nearest, hnearest⟩ := Sensor.nearestHit_ok
    ⟨pose.x, pose.y, Scalar.cos pose.theta, Scalar.sin pose.theta⟩ hshapes range
  refine ⟨_, ?_, Sensor.cut_within hrange nearest⟩
  rw [Sensor.front, Sensor.beam_eq hrange hheading, hnearest]
  rfl

/-- Shapes of no extent, of a negative one, without end, and with fields that are no number. -/
def rubble : List (Obstacle Binary64) :=
  [.circle Binary64.notANumber 0.0 1.0, .circle Binary64.infinity (-1.0) Binary64.infinity,
    .rectangle 1.0 0.0 0.0 (-2.0), .rectangle Binary64.infinity Binary64.notANumber (-3.0) 0.0,
    .circle 0.0 0.0 0.0]

theorem front_lies_within_range_rubble :
    ∃ reading, Sensor.front rubble ⟨0.0, Binary64.infinity, Binary64.notANumber⟩ 5.0 = .ok reading ∧
      reading.isNaN = false ∧ 0.0 ≤ reading ∧ reading ≤ 5.0 :=
  front_lies_within_range (by decide) (by decide) (by decide)

end PlanarDrive
