import PlanarDrive.Proofs.ExactSums
import PlanarDrive.Proofs.FirstAppearance
import PlanarDrive.Scoreboard

/-!
# Standings of missions

A scoreboard deals the runs out to their missions: every run is counted once, at the place of its
own mission, and the places stand in the order in which they were opened. So a standing depends on
the runs of its mission alone, and in exact numbers not on their order.
-/

namespace PlanarDrive

variable {K : Type} [Field K] [LinearOrder K] [Exact K] [IsStrictOrderedRing K]

namespace Scoreboard

section Places

variable {α : Type}

/-- The scoreboard that runs leave which are added one after the other. -/
def ofRuns (runs : List (RunMetrics α)) : Scoreboard α :=
  runs.foldl add empty

def runsOf (place : String) (runs : List (RunMetrics α)) : List (RunMetrics α) :=
  runs.filter (placeOf · = place)

theorem placeOf_of_unnamed {m : RunMetrics α} (h : m.mission = none ∨ m.mission = some "") :
    placeOf m = "unknown" := by
  rcases h with h | h
  · rw [placeOf, h]
  · rw [placeOf, h]
    rfl

theorem placeOf_of_named {m : RunMetrics α} {id : String} (h : m.mission = some id)
    (hid : id ≠ "") : placeOf m = id := by
  have hne : id.isEmpty = false := by simpa using hid
  rw [placeOf, h]
  simp [hne]

theorem runsOf_append (place : String) (runs : List (RunMetrics α)) (m : RunMetrics α) :
    runsOf place (runs ++ [m]) =
      if placeOf m = place then runsOf place runs ++ [m] else runsOf place runs := by
  rw [runsOf, List.filter_append]
  by_cases h : placeOf m = place
  · rw [if_pos h, List.filter_cons_of_pos (by simpa using h), List.filter_nil, runsOf]
  · rw [if_neg h, List.filter_cons_of_neg (by simpa using h), List.filter_nil, List.append_nil,
      runsOf]

theorem runsOf_ne_nil_iff {place : String} {runs : List (RunMetrics α)} :
    runsOf place runs ≠ [] ↔ place ∈ runs.map placeOf := by
  simp [runsOf, List.filter_eq_nil_iff]

/-- A run is added to the runs of its place, which is opened behind the others if it is new. -/
theorem insertAt_map {p : String} {m : RunMetrics α} {places : List String} (hnodup : places.Nodup)
    {f g : String → List (RunMetrics α)} (hnew : p ∉ places → f p = [])
    (hself : g p = f p ++ [m]) (hother : ∀ q, q ≠ p → g q = f q) :
    insertAt p m (places.map fun q => (q, f q)) =
      (if p ∈ places then places else places ++ [p]).map fun q => (q, g q) := by
  induction places with
  | nil =>
    rw [hnew List.not_mem_nil] at hself
    simp [insertAt, hself]
  | cons q rest ih =>
    obtain ⟨hq, hrest⟩ := List.nodup_cons.1 hnodup
    rw [List.map_cons, insertAt]
    by_cases hqp : q = p
    · subst hqp
      have hkept : rest.map (fun q => (q, f q)) = rest.map fun q => (q, g q) := by
        refine List.map_congr_left fun r hr => ?_
        rw [hother r fun h => hq (h ▸ hr)]
      simp [hself, hkept]
    · have hmem : p ∈ q :: rest ↔ p ∈ rest := by simp [Ne.symm hqp]
      rw [if_neg hqp, ih hrest fun h => hnew fun h' => h (hmem.1 h'), ← hother q hqp]
      by_cases hp : p ∈ rest
      · rw [if_pos hp, if_pos (hmem.2 hp), List.map_cons]
      · rw [if_neg hp, if_neg fun h => hp (hmem.1 h), List.cons_append, List.map_cons]

theorem ofRuns_append (runs : List (RunMetrics α)) (m : RunMetrics α) :
    ofRuns (runs ++ [m]) = (ofRuns runs).add m :=
  List.foldl_concat add empty m runs

/-- Every place holds its own runs, and the places stand as they first appear among the runs. -/
theorem places_ofRuns (runs : List (RunMetrics α)) :
    (ofRuns runs).places =
      (runs.map placeOf).eraseDups.map fun place => (place, runsOf place runs) := by
  induction runs using List.reverseRecOn with
  | nil => rfl
  | append_singleton runs m ih =>
    have hnew (h : placeOf m ∉ (runs.map placeOf).eraseDups) : runsOf (placeOf m) runs = [] := by
      rw [List.mem_eraseDups, ← runsOf_ne_nil_iff, not_not] at h
      exact h
    rw [ofRuns_append, add, ih, insertAt_map (g := fun q => runsOf q (runs ++ [m]))
        (nodup_eraseDups _) hnew ?_ ?_]
    · simp only [List.map_append, List.map_singleton, eraseDups_concat, List.mem_eraseDups]
    · rw [runsOf_append, if_pos rfl]
    · intro q hq
      rw [runsOf_append, if_neg hq.symm]

theorem missions_ofRuns (runs : List (RunMetrics α)) :
    (ofRuns runs).missions = (runs.map placeOf).eraseDups := by
  rw [missions, places_ofRuns, List.map_map]
  exact List.map_id _

/-- No run is lost and none is counted twice. -/
theorem sum_length_runsOf (runs : List (RunMetrics α)) :
    ((runs.map placeOf).eraseDups.map fun place => (runsOf place runs).length).sum =
      runs.length := by
  have hcount (place : String) : (runsOf place runs).length = (runs.map placeOf).count place := by
    rw [runsOf, ← List.countP_eq_length_filter, List.count, List.countP_map]
    rfl
  have hperm : ((runs.map placeOf).eraseDups).Perm (runs.map placeOf).dedup :=
    (List.perm_ext_iff_of_nodup (nodup_eraseDups _) (List.nodup_dedup _)).2 fun place => by
      rw [List.mem_eraseDups, List.mem_dedup]
  simp only [hcount]
  rw [(hperm.map _).sum_eq, List.sum_map_count_dedup_eq_length, List.length_map]

variable [Scalar α]

theorem summary_ofRuns (runs : List (RunMetrics α)) :
    (ofRuns runs).summary =
      (runs.map placeOf).eraseDups.map fun place => (place, standing (runsOf place runs)) := by
  rw [summary, places_ofRuns, List.map_map]
  rfl

theorem lookup_summary_ofRuns (runs : List (RunMetrics α)) (place : String) :
    (ofRuns runs).summary.lookup place =
      if place ∈ runs.map placeOf then some (standing (runsOf place runs)) else none := by
  rw [summary_ofRuns]
  split_ifs with h
  · exact List.lookup_graph _ (List.mem_eraseDups.2 h)
  · rw [List.lookup_eq_none_iff]
    intro entry hentry
    obtain ⟨q, hq, rfl⟩ := List.mem_map.1 hentry
    exact bne_iff_ne.2 fun hpq => h (hpq ▸ List.mem_eraseDups.1 hq)

/-- A run leaves the standings of all missions but its own. -/
theorem lookup_summary_add {runs : List (RunMetrics α)} {m : RunMetrics α} {place : String}
    (h : place ≠ placeOf m) :
    ((ofRuns runs).add m).summary.lookup place = (ofRuns runs).summary.lookup place := by
  rw [← ofRuns_append, lookup_summary_ofRuns, lookup_summary_ofRuns, runsOf_append,
    if_neg h.symm, List.map_append]
  simp [h]

end Places

omit [LinearOrder K] [Exact K] [IsStrictOrderedRing K] in
theorem sum_map_success (runs : List (RunMetrics K)) :
    (runs.map fun m => if m.success then (1 : K) else 0).sum = runs.countP (·.success) := by
  induction runs with
  | nil => simp
  | cons m rest ih => cases hm : m.success <;> simp [hm, ih, add_comm]

theorem standing_eq (runs : List (RunMetrics K)) :
    standing runs = ⟨runs.length, runs.countP (·.success) / runs.length,
      (runs.map (·.finalDistance)).sum / runs.length,
      (runs.map (·.pathLength)).sum / runs.length⟩ := by
  have hcounts : (fun m : RunMetrics K => if m.success then (1.0 : K) else 0.0) =
      fun m => if m.success then 1 else 0 := by norm_num
  simp only [standing, Sum.mean_eq_sum_div, List.length_map, hcounts, sum_map_success]

/-- In exact numbers a standing does not depend on the order of the runs. -/
theorem standing_perm {runs others : List (RunMetrics K)} (h : runs.Perm others) :
    standing runs = standing others := by
  rw [standing_eq, standing_eq, h.length_eq, h.countP_eq, (h.map _).sum_eq, (h.map _).sum_eq]

theorem successRate_standing_mem (runs : List (RunMetrics K)) :
    0 ≤ (standing runs).successRate ∧ (standing runs).successRate ≤ 1 := by
  have hcount : (runs.countP (·.success) : K) ≤ runs.length := by
    exact_mod_cast List.countP_le_length
  rw [standing_eq]
  exact ⟨div_nonneg (Nat.cast_nonneg _) (Nat.cast_nonneg _),
    div_le_one_of_le₀ hcount (Nat.cast_nonneg _)⟩

end Scoreboard

/-- Whatever runs are added to a scoreboard, it lists each mission once, in the order in which they
first appear, and runs that name no mission as one of their own. The numbers of runs add up to all
runs, and what is said of a mission is said of exactly its own runs. A further run leaves the
standings of all other missions, and the standings are the same whatever the order of the runs. -/
theorem scoreboard_partitions_runs (runs : List (RunMetrics K)) :
    (∀ m : RunMetrics K, m.mission = none ∨ m.mission = some "" →
        Scoreboard.placeOf m = "unknown") ∧
      (∀ (m : RunMetrics K) id, m.mission = some id → id ≠ "" → Scoreboard.placeOf m = id) ∧
      (Scoreboard.ofRuns runs).missions = (runs.map Scoreboard.placeOf).eraseDups ∧
      (Scoreboard.ofRuns runs).missions.Nodup ∧
      (Scoreboard.ofRuns runs).summary.map (·.1) = (Scoreboard.ofRuns runs).missions ∧
      ((Scoreboard.ofRuns runs).summary.map (·.2.runs)).sum = (runs.length : K) ∧
      (∀ place standing, (place, standing) ∈ (Scoreboard.ofRuns runs).summary →
        ∃ own, own = runs.filter (Scoreboard.placeOf · = place) ∧ own ≠ [] ∧
          standing.runs = own.length ∧
          standing.successRate = own.countP (·.success) / own.length ∧
          0 ≤ standing.successRate ∧ standing.successRate ≤ 1 ∧
          standing.meanFinalDistance = (own.map (·.finalDistance)).sum / own.length ∧
          standing.meanPathLength = (own.map (·.pathLength)).sum / own.length) ∧
      (∀ m place, place ≠ Scoreboard.placeOf m →
        ((Scoreboard.ofRuns runs).add m).summary.lookup place =
          (Scoreboard.ofRuns runs).summary.lookup place) ∧
      ∀ others : List (RunMetrics K), others.Perm runs → ∀ place,
        (Scoreboard.ofRuns others).summary.lookup place =
          (Scoreboard.ofRuns runs).summary.lookup place := by
  refine ⟨fun m => Scoreboard.placeOf_of_unnamed, fun m id => Scoreboard.placeOf_of_named,
    Scoreboard.missions_ofRuns runs, ?_, ?_, ?_, ?_, fun m place => Scoreboard.lookup_summary_add,
    ?_⟩
  · rw [Scoreboard.missions_ofRuns]
    exact nodup_eraseDups _
  · rw [Scoreboard.missions_ofRuns, Scoreboard.summary_ofRuns, List.map_map]
    exact List.map_id _
  · rw [Scoreboard.summary_ofRuns, List.map_map, ← Scoreboard.sum_length_runsOf runs,
      Nat.cast_list_sum, List.map_map]
    rfl
  · intro place standing h
    rw [Scoreboard.summary_ofRuns] at h
    obtain ⟨_, hplace, heq⟩ := List.mem_map.1 h
    cases heq
    obtain ⟨hnonneg, hle⟩ :=
      Scoreboard.successRate_standing_mem (Scoreboard.runsOf place runs)
    rw [Scoreboard.standing_eq] at hnonneg hle ⊢
    exact ⟨_, rfl, Scoreboard.runsOf_ne_nil_iff.2 (List.mem_eraseDups.1 hplace), rfl, rfl, hnonneg,
      hle, rfl, rfl⟩
  · intro others hperm place
    have hown : (Scoreboard.runsOf place others).Perm (Scoreboard.runsOf place runs) :=
      hperm.filter _
    have hplaces : place ∈ others.map Scoreboard.placeOf ↔ place ∈ runs.map Scoreboard.placeOf :=
      (hperm.map _).mem_iff
    rw [Scoreboard.lookup_summary_ofRuns, Scoreboard.lookup_summary_ofRuns,
      Scoreboard.standing_perm hown]
    exact if_congr hplaces rfl rfl

/-- Runs without a mission and with an empty one share a place, though another comes between. -/
theorem scoreboard_partitions_runs_unnamed :
    (Scoreboard.ofRuns [(⟨true, 1, 4, 2, 3, 1, none, []⟩ : RunMetrics ℝ),
        ⟨false, 5, 2, 2, 3, 1, some "a", []⟩, ⟨false, 3, 6, 2, 3, 1, some "", []⟩]).missions =
          ["unknown", "a"] ∧
      ∀ standing, ("unknown", standing) ∈
          (Scoreboard.ofRuns [(⟨true, 1, 4, 2, 3, 1, none, []⟩ : RunMetrics ℝ),
            ⟨false, 5, 2, 2, 3, 1, some "a", []⟩, ⟨false, 3, 6, 2, 3, 1, some "", []⟩]).summary →
        standing.runs = 2 ∧ standing.successRate = 1 / 2 ∧ standing.meanFinalDistance = 2 ∧
          standing.meanPathLength = 5 := by
  obtain ⟨-, -, hmissions, -, -, -, hown, -⟩ := scoreboard_partitions_runs
    [(⟨true, 1, 4, 2, 3, 1, none, []⟩ : RunMetrics ℝ), ⟨false, 5, 2, 2, 3, 1, some "a", []⟩,
      ⟨false, 3, 6, 2, 3, 1, some "", []⟩]
  refine ⟨hmissions, fun standing h => ?_⟩
  obtain ⟨own, hfilter, -, hruns, hrate, -, -, hdistance, hlength⟩ := hown _ _ h
  obtain rfl : own = [⟨true, 1, 4, 2, 3, 1, none, []⟩, ⟨false, 3, 6, 2, 3, 1, some "", []⟩] :=
    hfilter
  norm_num at hruns hrate hdistance hlength ⊢
  exact ⟨hruns, hrate, hdistance, hlength⟩

end PlanarDrive
