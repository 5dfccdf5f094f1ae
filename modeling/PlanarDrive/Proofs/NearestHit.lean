import PlanarDrive.Proofs.FreeSpace

/-!
# A reading is the nearest hit

In exact numbers the reading of a beam is the smallest of the range and the distances to all
obstacles that it hits. So it only depends on which obstacles there are, not on their order or on
how often one is listed; more obstacles or a shorter range can only shorten it. An obstacle that no
ray can be cast past is refused wherever it is listed.
-/

namespace PlanarDrive

variable {K : Type} [Field K] [LinearOrder K]

omit [Field K] in
/-- A set with more numbers in place of its smallest one, which is the smallest of them. -/
theorem isLeast_union_of_insert {s t : Set K} {a b : K} (ha : IsLeast s a)
    (hb : IsLeast (insert a t) b) : IsLeast (s ∪ t) b := by
  constructor
  · rcases hb.1 with rfl | hb
    · exact .inl ha.1
    · exact .inr hb
  · rintro u (hu | hu)
    · exact (hb.2 (Set.mem_insert _ _)).trans (ha.2 hu)
    · exact hb.2 (Set.mem_insert_of_mem _ hu)

variable [Exact K]

namespace Sensor

def hitDistances (ray : Ray K) (obstacles : List (Obstacle K)) : Set K :=
  {t | ∃ o ∈ obstacles, ray.hit o = .ok (some t)}

variable {ray : Ray K} {obstacles xs ys : List (Obstacle K)}

theorem hitDistances_nil : hitDistances ray [] = ∅ := by
  simp [hitDistances]

theorem hitDistances_append :
    hitDistances ray (xs ++ ys) = hitDistances ray xs ∪ hitDistances ray ys := by
  ext t
  change (∃ o ∈ xs ++ ys, _) ↔ (∃ o ∈ xs, _) ∨ ∃ o ∈ ys, _
  simp only [List.mem_append, or_and_right, exists_or]

theorem hitDistances_singleton {o : Obstacle K} {hit : Option K} (h : ray.hit o = .ok hit) :
    hitDistances ray [o] = {t | t ∈ hit} := by
  ext t
  simp [hitDistances, h]

theorem hitDistances_mono (h : xs ⊆ ys) : hitDistances ray xs ⊆ hitDistances ray ys :=
  fun _ ⟨o, ho, hhit⟩ => ⟨o, h ho, hhit⟩

/-- The nearer of a distance and a hit is the smallest of them. -/
theorem isLeast_nearer (distance : K) (hit : Option K) :
    IsLeast (insert distance {t | t ∈ hit}) (nearer distance hit) := by
  rcases nearer_eq_or distance hit with ⟨heq, hbeyond⟩ | ⟨t, ht, heq, hlt⟩
  · rw [heq]
    refine ⟨Set.mem_insert _ _, ?_⟩
    rintro u (rfl | hu)
    · exact le_rfl
    · exact hbeyond u hu
  · rw [heq]
    refine ⟨Set.mem_insert_of_mem _ ht, ?_⟩
    rintro u (rfl | hu)
    · exact hlt.le
    · exact (Option.mem_unique ht hu).le

variable [IsStrictOrderedRing K]

theorem nonneg_of_mem_hitDistances {t : K} (h : t ∈ hitDistances ray obstacles) : 0 ≤ t := by
  obtain ⟨o, -, hhit⟩ := h
  have ho : o ≠ .missing := by
    rintro rfl
    cases hhit
  obtain ⟨hit, hhit', hfront⟩ := ray.hit_ok ho
  rw [hhit', Except.ok.injEq] at hhit
  have hnot := hfront t hhit
  rw [Exact.scalar_zero] at hnot
  exact not_lt.1 hnot

theorem nearestHit_isLeast (ray : Ray K) (h : .missing ∉ obstacles) (distance : K) :
    ∃ nearest, nearestHit ray obstacles distance = .ok nearest ∧
      IsLeast (insert distance (hitDistances ray obstacles)) nearest := by
  induction obstacles generalizing distance with
  | nil =>
    refine ⟨distance, rfl, ?_⟩
    rw [hitDistances_nil, insert_empty_eq]
    exact isLeast_singleton
  | cons o rest ih =>
    rw [List.mem_cons, not_or] at h
    obtain ⟨hit, hhit, -⟩ := ray.hit_ok (Ne.symm h.1)
    obtain ⟨nearest, hnearest, hleast⟩ := ih h.2 (nearer distance hit)
    refine ⟨nearest, ?_, ?_⟩
    · rw [nearestHit, hhit]
      exact hnearest
    · have hsplit : insert distance (hitDistances ray (o :: rest)) =
          insert distance {t | t ∈ hit} ∪ hitDistances ray rest := by
        rw [← List.singleton_append, hitDistances_append, hitDistances_singleton hhit,
          Set.insert_union]
      rw [hsplit]
      exact isLeast_union_of_insert (isLeast_nearer distance hit) hleast

theorem nearestHit_of_missing (h : .missing ∈ obstacles) (distance : K) :
    nearestHit ray obstacles distance = .error .unsupportedObstacle := by
  induction obstacles generalizing distance with
  | nil => cases h
  | cons o rest ih =>
    by_cases ho : o = .missing
    · subst ho
      rfl
    · obtain ⟨hit, hhit, -⟩ := ray.hit_ok ho
      rw [nearestHit, hhit]
      exact ih ((List.mem_cons.1 h).resolve_left (Ne.symm ho)) _

variable {pose : Pose K} {range r : K}

theorem front_isLeast (pose : Pose K) (hrange : 0 ≤ range) (h : .missing ∉ obstacles) :
    ∃ r, front obstacles pose range = .ok r ∧
      IsLeast (insert range (hitDistances pose.ahead obstacles)) r ∧ 0 ≤ r ∧ r ≤ range := by
  obtain ⟨nearest, hnearest, hleast⟩ := nearestHit_isLeast pose.ahead h range
  have hle : nearest ≤ range := hleast.2 (Set.mem_insert _ _)
  have h0 : 0 ≤ nearest := by
    rcases hleast.1 with rfl | hmem
    · exact hrange
    · exact nonneg_of_mem_hitDistances hmem
  exact ⟨nearest, beam_of_nearestHit hnearest h0 hle, hleast, h0, hle⟩

theorem front_of_missing (hrange : 0 ≤ range) (h : .missing ∈ obstacles) :
    front obstacles pose range = .error .unsupportedObstacle := by
  have hrange' : (0.0 : K) ≤ range := by rwa [Exact.scalar_zero]
  rw [front, beam_eq hrange' rfl, nearestHit_of_missing h]
  rfl

theorem front_eq_ok_iff (hrange : 0 ≤ range) :
    front obstacles pose range = .ok r ↔
      .missing ∉ obstacles ∧ IsLeast (insert range (hitDistances pose.ahead obstacles)) r := by
  by_cases h : .missing ∈ obstacles
  · rw [front_of_missing hrange h]
    exact iff_of_false (by simp) fun hand => hand.1 h
  · obtain ⟨r', hr', hleast, -⟩ := front_isLeast pose hrange h
    rw [hr', Except.ok.injEq, and_iff_right h]
    exact ⟨fun heq => heq ▸ hleast, hleast.unique⟩

theorem front_singleton {o : Obstacle K} {hit : Option K} (h : pose.ahead.hit o = .ok hit)
    (hrange : 0 ≤ range) : front [o] pose range = .ok (nearer range hit) := by
  have ho : .missing ∉ [o] := by
    rw [List.mem_singleton]
    rintro rfl
    cases h
  rw [front_eq_ok_iff hrange, hitDistances_singleton h]
  exact ⟨ho, isLeast_nearer range hit⟩

theorem front_congr (hrange : 0 ≤ range) (h : ∀ o, o ∈ xs ↔ o ∈ ys) :
    front xs pose range = front ys pose range := by
  by_cases hmissing : .missing ∈ xs
  · rw [front_of_missing hrange hmissing, front_of_missing hrange ((h _).1 hmissing)]
  · obtain ⟨r, hr, -⟩ := front_isLeast pose hrange hmissing
    have hsame : hitDistances pose.ahead xs = hitDistances pose.ahead ys :=
      Set.Subset.antisymm (hitDistances_mono fun o => (h o).1) (hitDistances_mono fun o => (h o).2)
    rw [hr, eq_comm, front_eq_ok_iff hrange, ← h, ← hsame, ← front_eq_ok_iff hrange, hr]

theorem front_mono (hrange : 0 ≤ range) (h : xs ⊆ ys) {a b : K}
    (ha : front xs pose range = .ok a) (hb : front ys pose range = .ok b) : b ≤ a := by
  obtain ⟨-, ha⟩ := (front_eq_ok_iff hrange).1 ha
  obtain ⟨-, hb⟩ := (front_eq_ok_iff hrange).1 hb
  exact hb.2 (Set.insert_subset_insert (hitDistances_mono h) ha.1)

theorem front_append (hrange : 0 ≤ range) {a b : K} (ha : front xs pose range = .ok a)
    (hb : front ys pose range = .ok b) : front (xs ++ ys) pose range = .ok (min a b) := by
  obtain ⟨hx, ha⟩ := (front_eq_ok_iff hrange).1 ha
  obtain ⟨hy, hb⟩ := (front_eq_ok_iff hrange).1 hb
  rw [front_eq_ok_iff hrange, List.mem_append, not_or, hitDistances_append,
    Set.insert_union_distrib]
  exact ⟨⟨hx, hy⟩, ha.union hb⟩

theorem front_of_shorter {shorter : K} (hshorter : 0 ≤ shorter) (hle : shorter ≤ range)
    (h : front obstacles pose range = .ok r) :
    front obstacles pose shorter = .ok (min shorter r) := by
  obtain ⟨hmissing, hleast⟩ := (front_eq_ok_iff (hshorter.trans hle)).1 h
  rw [front_eq_ok_iff hshorter]
  refine ⟨hmissing, ?_, ?_⟩
  · rcases le_total shorter r with hcut | hcut
    · rw [min_eq_left hcut]
      exact Set.mem_insert _ _
    · rw [min_eq_right hcut]
      rcases hleast.1 with rfl | hmem
      · exact .inl (le_antisymm hcut hle)
      · exact .inr hmem
  · rintro u (rfl | hu)
    · exact min_le_left _ _
    · exact (min_le_right _ _).trans (hleast.2 (.inr hu))

theorem front_of_negative (h : range < 0) :
    front obstacles pose range = .error (.negativeRange range) :=
  if_pos (by rwa [Exact.scalar_zero])

end Sensor

/-- The reading straight ahead is the smallest of the range and the distances to all obstacles that
are hit. It is the same for two lists of the same obstacles in any order and number, does not grow
with more obstacles, is the smaller of the readings of two parts of a list, and a shorter range only
cuts it off. An obstacle that no ray can be cast past is refused wherever it is listed, and a range
below zero whatever is listed. -/
theorem front_is_nearest_hit [IsStrictOrderedRing K] (pose : Pose K) :
    (∀ obstacles range, 0 ≤ range → .missing ∉ obstacles →
      ∃ r, Sensor.front obstacles pose range = .ok r ∧
        IsLeast (insert range (Sensor.hitDistances pose.ahead obstacles)) r ∧ 0 ≤ r ∧ r ≤ range) ∧
    (∀ xs ys range, 0 ≤ range → (∀ o, o ∈ xs ↔ o ∈ ys) →
      Sensor.front xs pose range = Sensor.front ys pose range) ∧
    (∀ xs ys range a b, 0 ≤ range → xs ⊆ ys → Sensor.front xs pose range = .ok a →
      Sensor.front ys pose range = .ok b → b ≤ a) ∧
    (∀ xs ys range a b, 0 ≤ range → Sensor.front xs pose range = .ok a →
      Sensor.front ys pose range = .ok b →
      Sensor.front (xs ++ ys) pose range = .ok (min a b)) ∧
    (∀ obstacles shorter range r, 0 ≤ shorter → shorter ≤ range →
      Sensor.front obstacles pose range = .ok r →
      Sensor.front obstacles pose shorter = .ok (min shorter r)) ∧
    (∀ obstacles range, 0 ≤ range → .missing ∈ obstacles →
      Sensor.front obstacles pose range = .error .unsupportedObstacle) ∧
    ∀ obstacles range, range < 0 →
      Sensor.front obstacles pose range = .error (.negativeRange range) := by
  refine ⟨?least, ?same, ?more, ?parts, ?shorter, ?missing, ?negative⟩
  case least =>
    intro obstacles range hrange h
    exact Sensor.front_isLeast pose hrange h
  case same =>
    intro xs ys range hrange h
    exact Sensor.front_congr hrange h
  case more =>
    intro xs ys range a b hrange h ha hb
    exact Sensor.front_mono hrange h ha hb
  case parts =>
    intro xs ys range a b hrange ha hb
    exact Sensor.front_append hrange ha hb
  case shorter =>
    intro obstacles shorter range r hshorter hle h
    exact Sensor.front_of_shorter hshorter hle h
  case missing =>
    intro obstacles range hrange h
    exact Sensor.front_of_missing hrange h
  case negative =>
    intro obstacles range h
    exact Sensor.front_of_negative h

/-- Two discs ahead, the farther one first. -/
def twoDiscs : List (Obstacle ℝ) :=
  [.circle 6 0 1, .circle 3 0 1]

theorem front_is_nearest_hit_twoDiscs :
    Sensor.front twoDiscs ⟨0, 0, 0⟩ 9 = .ok 2 ∧
      Sensor.front (twoDiscs.reverse ++ twoDiscs) ⟨0, 0, 0⟩ 9 = .ok 2 ∧
      Sensor.front twoDiscs ⟨0, 0, 0⟩ 1 = .ok 1 ∧
      Sensor.front (twoDiscs ++ [.missing]) ⟨0, 0, 0⟩ 9 = .error .unsupportedObstacle ∧
      Sensor.front twoDiscs ⟨0, 0, 0⟩ (-1) = .error (.negativeRange (-1)) := by
  obtain ⟨hleast, hsame, -, -, hshorter, hmissing, hnegative⟩ :=
    front_is_nearest_hit (⟨0, 0, 0⟩ : Pose ℝ)
  have hcos : Exact.cos (0 : ℝ) = 1 := Real.cos_zero
  have hsin : Exact.sin (0 : ℝ) = 0 := Real.sin_zero
  have hroot : Exact.sqrt (1 : ℝ) = 1 := Real.sqrt_one
  have hhit {c : ℝ} (hc : 1 < c) :
      (⟨0, 0, 0⟩ : Pose ℝ).ahead.hit (.circle c 0 1) = .ok (some (c - 1)) := by
    have hray : (⟨0, 0, 0⟩ : Pose ℝ).ahead = ⟨0, 0, 1, 0⟩ := by simp [Pose.ahead, hcos, hsin]
    have halong : (⟨0, 0, 1, 0⟩ : Ray ℝ).along c 0 = c := by simp [Ray.along]
    have hacross : (⟨0, 0, 1, 0⟩ : Ray ℝ).across c 0 = 0 := by simp [Ray.across, Ray.along]
    have hhalf : (⟨0, 0, 1, 0⟩ : Ray ℝ).half c 0 1 = 1 := by simp [Ray.half, hacross, hroot]
    rw [hray, Ray.hit, Ray.hitCircle_of_le (by rw [hacross]; norm_num), halong, hhalf,
      if_pos (by linarith)]
  obtain ⟨r, hr, hmin, -⟩ := hleast twoDiscs 9 (by norm_num) (by simp [twoDiscs])
  have htwo : r = 2 := by
    have hnear : (2 : ℝ) ∈ Sensor.hitDistances (⟨0, 0, 0⟩ : Pose ℝ).ahead twoDiscs :=
      ⟨.circle 3 0 1, by simp [twoDiscs], by rw [hhit (by norm_num)]; norm_num⟩
    refine le_antisymm (hmin.2 (.inr hnear)) ?_
    rcases hmin.1 with rfl | ⟨o, ho, hhit'⟩
    · norm_num
    · simp only [twoDiscs, List.mem_cons, List.not_mem_nil, or_false] at ho
      rcases ho with rfl | rfl <;> rw [hhit (by norm_num)] at hhit' <;> cases hhit' <;> norm_num
  subst htwo
  refine ⟨hr, ?_, ?_, hmissing _ 9 (by norm_num) (by simp), hnegative _ (-1) (by norm_num)⟩
  · rw [hsame _ twoDiscs 9 (by norm_num) (by simp), hr]
  · rw [hshorter twoDiscs 1 9 2 (by norm_num) (by norm_num) hr]
    norm_num

end PlanarDrive
