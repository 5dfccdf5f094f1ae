import PlanarDrive.Proofs.AppendOnly
import PlanarDrive.Proofs.FlatRows

/-!
# Logged runs can be replayed

A run is logged with its motions and all samples. The last row of the journal then gives back the
same motions, from which the same trajectory is built, next to the samples, the last sample and the
verdict as they were logged. All that is relied on is that no number of theirs is no number.
-/

namespace PlanarDrive

def Pose.numbers (p : Pose Binary64) : List Binary64 :=
  [p.x, p.y, p.theta]

def Sample.numbers (s : Sample Binary64) : List Binary64 :=
  s.time :: s.pose.numbers

def Motion.numbers : Motion Binary64 → List Binary64
  | .drive d => [d.v, d.w, d.duration]
  | .teleport p => p.numbers

namespace Motion

theorem ofValue_toValue (m : Motion Binary64) : ofValue m.toValue = .ok m := by
  cases m <;> rfl

theorem mapM_ofValue (motions : List (Motion Binary64)) :
    (motions.map toValue).mapM ofValue = .ok motions :=
  mapM_map_eq_ok fun m _ => m.ofValue_toValue

end Motion

section Numbers

variable {depth : Nat}

theorem Motion.canonical_toValue {m : Motion Binary64} (h : ∀ x ∈ m.numbers, x.isNaN = false) :
    m.toValue.canonical = m.toValue := by
  cases m with
  | drive d =>
    simp only [numbers, List.forall_mem_cons] at h
    simp [toValue, Value.canonical, Value.canonicalFields, h.1, h.2.1, h.2.2.1]
  | teleport p =>
    simp only [numbers, Pose.numbers, List.forall_mem_cons] at h
    simp [toValue, Pose.toValue, Value.canonical, Value.canonicalFields, h.1, h.2.1, h.2.2.1]

theorem Sample.canonical_toValue {s : Sample Binary64} (h : ∀ x ∈ s.numbers, x.isNaN = false) :
    s.toValue.canonical = s.toValue := by
  simp only [numbers, Pose.numbers, List.forall_mem_cons] at h
  simp [toValue, Value.canonical, Value.canonicalFields, h.1, h.2.1, h.2.2.1, h.2.2.2.1]

theorem Motion.storable_toValue (m : Motion Binary64) : m.toValue.Storable (depth + 2) := by
  cases m with
  | drive d =>
    refine .record (by simp) ?_
    simp only [List.forall_mem_cons]
    exact ⟨.text _ _, .float _ _, .float _ _, .float _ _, by simp⟩
  | teleport p =>
    refine .record (by simp) ?_
    simp only [List.forall_mem_cons]
    refine ⟨.text _ _, .record (by simp) ?_, by simp⟩
    simp only [List.forall_mem_cons]
    exact ⟨.float _ _, .float _ _, .float _ _, by simp⟩

theorem Sample.storable_toValue (s : Sample Binary64) : s.toValue.Storable (depth + 1) := by
  refine .record (by simp) ?_
  simp only [List.forall_mem_cons]
  exact ⟨.float _ _, .float _ _, .float _ _, .float _ _, by simp⟩

end Numbers

namespace Journal

def runFields (mission : String) (motions : List (Motion Binary64))
    (samples : List (Sample Binary64)) (verdict : Verdict Binary64)
    (metrics : List (String × Value)) (last : Sample Binary64) : List (String × Value) :=
  [("mission_id", .text mission), ("outcome", verdictRecord verdict), ("final", last.toValue),
    ("primitives", .list (motions.map Motion.toValue)),
    ("samples", .list (samples.map Sample.toValue)), ("metrics", .record metrics)]

variable {mission : String} {motions : List (Motion Binary64)} {samples : List (Sample Binary64)}
  {verdict : Verdict Binary64} {metrics : List (String × Value)} {last : Sample Binary64}

theorem runRecord_of_last (h : Trajectory.last samples = .ok last) :
    runRecord mission motions samples verdict (.record metrics) =
      .ok (.record (runFields mission motions samples verdict metrics last)) := by
  have hmetrics : (if (Value.record metrics).isNothing then .record [] else .record metrics) =
      Value.record metrics := by
    cases metrics <;> rfl
  rw [runRecord, h, hmetrics]
  rfl

/-- The motions and samples of a run hold only numbers, and its metrics can be stored. -/
structure Archivable (motions : List (Motion Binary64)) (samples : List (Sample Binary64))
    (metrics : List (String × Value)) : Prop where
  motions : ∀ m ∈ motions, ∀ x ∈ m.numbers, x.isNaN = false
  samples : ∀ s ∈ samples, ∀ x ∈ s.numbers, x.isNaN = false
  metrics : (Value.record metrics).Storable (Json.depthLimit - 1)

theorem last_mem (h : Trajectory.last samples = .ok last) : last ∈ samples := by
  unfold Trajectory.last at h
  cases hlast : samples.getLast? with
  | none => rw [hlast] at h; cases h
  | some s =>
    rw [hlast] at h
    cases h
    exact List.mem_of_getLast? hlast

theorem Archivable.storable (h : Archivable motions samples metrics) :
    (Value.record (runFields mission motions samples verdict metrics last)).Storable
      Json.depthLimit := by
  refine .record (by simp [runFields]) ?_
  simp only [runFields, List.forall_mem_cons]
  refine ⟨.text _ _, .record (by simp) ?_, ?_, .list ?_, .list ?_, h.metrics, by simp⟩
  · simp only [List.forall_mem_cons]
    exact ⟨.bool _ _, .float _ _, by simp⟩
  · exact last.storable_toValue
  · rintro v hv
    obtain ⟨m, -, rfl⟩ := List.mem_map.1 hv
    exact m.storable_toValue
  · rintro v hv
    obtain ⟨s, -, rfl⟩ := List.mem_map.1 hv
    exact s.storable_toValue

/-- Of a run only the distance and the metrics may hold what is no number. -/
theorem Archivable.canonicalFields (h : Archivable motions samples metrics)
    (hlast : Trajectory.last samples = .ok last) :
    Value.canonicalFields (runFields mission motions samples verdict metrics last) =
      runFields mission motions samples ⟨verdict.success, verdict.finalDistance.canonical⟩
        (Value.canonicalFields metrics) last := by
  have hmotions : Value.canonicalItems (motions.map Motion.toValue) =
      motions.map Motion.toValue := by
    rw [Value.canonicalItems_eq_map, List.map_map]
    exact List.map_congr_left fun m hm => Motion.canonical_toValue (h.motions m hm)
  have hsamples : Value.canonicalItems (samples.map Sample.toValue) =
      samples.map Sample.toValue := by
    rw [Value.canonicalItems_eq_map, List.map_map]
    exact List.map_congr_left fun s hs => Sample.canonical_toValue (h.samples s hs)
  have hfinal := Sample.canonical_toValue (h.samples last (last_mem hlast))
  simp [runFields, Value.canonicalFields, Value.canonical, verdictRecord, hmotions, hsamples,
    hfinal]

/-- The columns of a run beside its metrics, and what stands in them. -/
def runCells (mission : String) (motions : List (Motion Binary64))
    (samples : List (Sample Binary64)) (verdict : Verdict Binary64) (last : Sample Binary64) :
    List (String × Value) :=
  [("outcome.success", .bool verdict.success),
    ("outcome.final_distance", .float verdict.finalDistance), ("final.t", .float last.time),
    ("final.x", .float last.pose.x), ("final.y", .float last.pose.y),
    ("final.theta", .float last.pose.theta), ("mission_id", .text mission),
    ("primitives", .list (motions.map Motion.toValue)),
    ("samples", .list (samples.map Sample.toValue))]

/-- The row of a run: its metrics stand below their own name and replace nothing. -/
theorem lookup_runFields {name : String} (hname : ¬Value.Below "metrics" name) :
    (Value.flatten (runFields mission motions samples verdict metrics last)).lookup name =
      (runCells mission motions samples verdict last).lookup name := by
  have hnested : (Value.enterAll "" [] ((runFields mission motions samples verdict metrics
      last).filter fun f => f.2.isRecord)) = Value.enterAll "metrics"
        ((runCells mission motions samples verdict last).take 6) metrics := by
    rfl
  have hplain : (runFields mission motions samples verdict metrics last).filter
      (fun f => !f.2.isRecord) = (runCells mission motions samples verdict last).drop 6 := by
    rfl
  rw [Value.lookup_flatten, hnested, hplain, Value.lookup_enterAll (by decide) hname,
    ← List.lookup_append]
  rfl

theorem lookup_runCells : ∀ f ∈ runCells mission motions samples verdict last,
    ¬Value.Below "metrics" f.1 ∧
      (runCells mission motions samples verdict last).lookup f.1 = some f.2 := by
  simp only [runCells, List.forall_mem_cons]
  exact ⟨⟨by decide, rfl⟩, ⟨by decide, rfl⟩, ⟨by decide, rfl⟩, ⟨by decide, rfl⟩, ⟨by decide, rfl⟩,
    ⟨by decide, rfl⟩, ⟨by decide, rfl⟩, ⟨by decide, rfl⟩, ⟨by decide, rfl⟩, by simp⟩

theorem cell_runFields : ∀ f ∈ runCells mission motions samples verdict last,
    Table.cell (Value.flatten (runFields mission motions samples verdict metrics last)) f.1 =
      f.2 := by
  intro f hf
  obtain ⟨hname, hlookup⟩ := lookup_runCells f hf
  rw [Table.cell, lookup_runFields hname, hlookup]
  rfl

/-- The last row of a table is a run as it was logged. -/
structure Table.EndsWithRun (table : Table) (mission : String) (motions : List (Motion Binary64))
    (samples : List (Sample Binary64)) (verdict : Verdict Binary64) (last : Sample Binary64) :
    Prop where
  replays : table.motions (-1) = .ok motions
  cells : ∃ row, table.row (-1) = .ok row ∧
    ∀ f ∈ runCells mission motions samples verdict last, cell row f.1 = f.2

theorem endsWithRun_tail (front : List (List (String × Value))) {count : Int} (hcount : 1 ≤ count) :
    ((Table.ofRows (front ++ [Value.flatten (runFields mission motions samples verdict metrics
      last)])).tail count).EndsWithRun mission motions samples verdict last := by
  generalize hlastRow : Value.flatten (runFields mission motions samples verdict metrics last) = row
  have hrow : ((Table.ofRows (front ++ [row])).tail count).row (-1) = .ok row :=
    Table.row_last hcount
  have hcells : ∀ f ∈ runCells mission motions samples verdict last, Table.cell row f.1 = f.2 :=
    hlastRow ▸ cell_runFields
  refine ⟨?_, row, hrow, hcells⟩
  have hmotions : Table.cell row "primitives" = .list (motions.map Motion.toValue) :=
    hcells ("primitives", _) (by simp [runCells])
  have hcolumn : "primitives" ∈ Table.columnsOf (front ++ [row]) := by
    refine Table.mem_columnsOf (List.mem_append_right _ List.mem_cons_self) ?_
    refine Decidable.byContradiction fun hnone => ?_
    rw [Table.cell, Value.lookup_eq_none hnone] at hmotions
    cases hmotions
  have hcontains : ((Table.ofRows (front ++ [row])).tail count).columns.contains "primitives" =
      true := List.contains_iff_mem.2 hcolumn
  rw [Table.motions, hrow]
  simp only [bind, Except.bind, hcontains, if_true, hmotions, Value.elements, Motion.mapM_ofValue]

/-- Logged after any text that can be read, a run is in the last row, and the trajectory that is
built from its motions is the one that was logged. -/
theorem logged_run_replays {tree : FileTree} {path : String} {place : Place} {old : String}
    (h : Hosts tree path place) (hcontent : tree.content place = old)
    (hends : Text.EndsLine old.toList) (hread : ∀ l ∈ lines old, Readable l)
    {start : Pose Binary64} {dt : TimeStep Binary64}
    (hbuild : Trajectory.build motions start dt = .ok samples) {goal : Goal Binary64}
    (hverdict : goal.judge samples = .ok verdict)
    (hkeeps : Archivable motions samples metrics) (mission : String) {count : Int}
    (hcount : 1 ≤ count) :
    ∃ last table, Trajectory.last samples = .ok last ∧
      Table.load (Desk.run path ⟨[], tree⟩ [.start,
        .logRun 0 mission motions samples verdict (.record metrics)]).tree path count = .ok table ∧
      table.EndsWithRun mission motions samples
        ⟨verdict.success, verdict.finalDistance.canonical⟩ last ∧
      (do Trajectory.build (← table.motions (-1)) start dt) = .ok samples := by
  obtain ⟨last, hlast, -⟩ : ∃ last, Trajectory.last samples = .ok last ∧
      goal.judgePose last.pose = verdict := by
    unfold Goal.judge at hverdict
    cases hlast : Trajectory.last samples with
    | error f => rw [hlast] at hverdict; cases hverdict
    | ok last =>
      rw [hlast] at hverdict
      cases hverdict
      exact ⟨last, rfl, rfl⟩
  let fields := runFields mission motions samples verdict metrics last
  have hlogged : logged [] [.start, .logRun 0 mission motions samples verdict (.record metrics)] =
      [fields] := by
    simp [logged, accepted, openAfter, Deed.given?, runRecord_of_last hlast, fields]
  have hstart : (Desk.mk [] tree).Follows path place [] := ⟨rfl, h⟩
  obtain ⟨hfollows, htext⟩ := hstart.run
    [.start, .logRun 0 mission motions samples verdict (.record metrics)]
  rw [hcontent, hlogged] at htext
  have hstorable : ∀ f ∈ [fields], (Value.record f).Storable Json.depthLimit := by
    simpa using hkeeps.storable
  have hload := load_of_content hfollows.hosts hends hread htext hstorable count
  have hrows : rowsAfter old [fields] = ((lines old).filterMap object?).map Value.flatten ++
      [Value.flatten (runFields mission motions samples
        ⟨verdict.success, verdict.finalDistance.canonical⟩
        (Value.canonicalFields metrics) last)] := by
    simp [rowsAfter, fields, hkeeps.canonicalFields hlast]
  rw [hrows] at hload
  refine ⟨last, _, hlast, hload, endsWithRun_tail _ hcount, ?_⟩
  rw [(endsWithRun_tail _ hcount).replays]
  exact hbuild

def halfStep : TimeStep Binary64 :=
  ⟨⟨0x3fe0000000000000⟩, by decide +kernel, by decide +kernel⟩

/-- A jump to a point, and a drive of no duration. -/
def hops : List (Motion Binary64) :=
  [.teleport ⟨⟨0x3ff8000000000000⟩, ⟨0xc000000000000000⟩, ⟨0⟩⟩,
    .drive ⟨⟨0x3ff0000000000000⟩, ⟨0⟩, ⟨0⟩⟩]

def hopSamples : List (Sample Binary64) :=
  [.initial ⟨⟨0⟩, ⟨0⟩, ⟨0⟩⟩, ⟨⟨0⟩, ⟨⟨0x3ff8000000000000⟩, ⟨0xc000000000000000⟩, ⟨0⟩⟩⟩]

def hopMetrics : List (String × Value) :=
  [("length", .float ⟨0x4004000000000000⟩), ("by", .record [("name", .text "a \"b\"\n")])]

theorem archivable_hops : Archivable hops hopSamples hopMetrics where
  motions := by decide +kernel
  samples := by decide +kernel
  metrics := Value.storable_of_isStorable _ _ (by decide +kernel)

theorem logged_run_replays_hops :
    ∃ last table, Trajectory.last hopSamples = .ok last ∧
      Table.load (Desk.run "a" ⟨[], shelf mixedText⟩ [.start,
        .logRun 0 "m" hops hopSamples ⟨true, ⟨0⟩⟩ (.record hopMetrics)]).tree "a" 1 = .ok table ∧
      table.EndsWithRun "m" hops hopSamples ⟨true, Binary64.canonical ⟨0⟩⟩ last ∧
      (do Trajectory.build (← table.motions (-1)) ⟨⟨0⟩, ⟨0⟩, ⟨0⟩⟩ halfStep) = .ok hopSamples := by
  have hgoal : (Goal.mk (⟨0x3ff8000000000000⟩ : Binary64) ⟨0xc000000000000000⟩
      ⟨0x3fe0000000000000⟩).judge hopSamples = .ok ⟨true, ⟨0⟩⟩ := rfl
  have hbuild : Trajectory.build hops ⟨⟨0⟩, ⟨0⟩, ⟨0⟩⟩ halfStep = .ok hopSamples := rfl
  exact logged_run_replays (hosts_shelf _) (content_shelf _) endsLine_mixedText readable_mixedText
    hbuild hgoal archivable_hops "m" (by decide)

end Journal

end PlanarDrive
