import PlanarDrive.Proofs.ConductedRun
import PlanarDrive.Proofs.RunArchive
import PlanarDrive.Proofs.RunSteps
import PlanarDrive.Proofs.ShownHeading

/-!
# What a run reports

A run tells its user about a mission by the lines that it prints and by a record in the journal. Up
to the journal it only reads files, so a run that ends before leaves all of them as they are. A run
that comes to the journal adds one whole record to it. What the record, the verdict line and the
last row of the table tell is the same end of the same motions.
-/

namespace PlanarDrive

namespace CommandLine

open Running

/-- What a run knows when it comes to the journal. -/
structure Rehearsal where
  settings : Settings
  mission : Mission
  conduct : Conduct
  scan : List Binary64

def Rehearsal.lines (r : Rehearsal) : List String :=
  introduction r.mission ++ PoseTable.lines r.conduct.rows ++
    ["", scanLine r.scan, verdictLine r.conduct r.mission.world.goal]

section Parts

variable {m : Type → Type} [Monad m] [Disk m]

/-- A run up to the journal. -/
def rehearse (options : Options) : Running m Rehearsal := do
  let d ← settle (Settings.readDocument (← readSettings options))
  let settings ← settle (Settings.ofDocument d)
  let mission ← chooseMission options d
  print (introduction mission)
  let c ← settle (conduct settings mission)
  print (PoseTable.lines c.rows ++ [""])
  let scan ← settle (Sensor.scan mission.world.obstacles c.session.pose settings.lidar)
  print [scanLine scan, verdictLine c mission.world.goal]
  pure ⟨settings, mission, c, scan⟩

def conclude (options : Options) (r : Rehearsal) : Running m Unit := do
  if options.journal then writeJournal r.settings r.mission r.conduct
  match options.plot.filter (!·.isEmpty) with
  | some path => writeChart path r.mission r.conduct
  | none => pure ()

theorem perform_eq [LawfulMonad m] (options : Options) :
    (perform options : Running m Unit) = rehearse options >>= conclude options := by
  simp only [rehearse, bind_assoc, pure_bind]
  rfl

end Parts

theorem reads_readSettings (options : Options) : Reads (readSettings options) := by
  unfold readSettings
  cases options.settings with
  | some path => exact reads_read path
  | none => exact reads_settle _

theorem silent_readSettings (options : Options) : Silent (readSettings options) := by
  unfold readSettings
  cases options.settings with
  | some path => exact silent_onDisk _
  | none => exact silent_settle _

theorem reads_chooseMission (options : Options) (d : Document) :
    Reads (chooseMission options d) := by
  unfold chooseMission
  split
  · exact (reads_read _).bind fun text => reads_settle _
  · exact reads_settle _
  · refine (reads_settle _).bind fun part => ?_
    split
    · exact reads_settle _
    · exact (reads_settle _).bind fun id => reads_settle _

theorem silent_chooseMission (options : Options) (d : Document) :
    Silent (chooseMission options d) := by
  unfold chooseMission
  split
  · exact (silent_onDisk _).bind fun text => silent_settle _
  · exact silent_settle _
  · refine (silent_settle _).bind fun part => ?_
    split
    · exact silent_settle _
    · exact (silent_settle _).bind fun id => silent_settle _

/-- Up to the journal a run leaves all files as they are. -/
theorem reads_rehearse (options : Options) : Reads (rehearse options) :=
  (reads_readSettings options).bind fun _ => (reads_settle _).bind fun d =>
    (reads_settle _).bind fun _ => (reads_chooseMission options d).bind fun _ =>
      (reads_print _).bind fun _ => (reads_settle _).bind fun _ => (reads_print _).bind fun _ =>
        (reads_settle _).bind fun _ => (reads_print _).bind fun _ => reads_pure _

theorem rehearse_ok {options : Options} {tree tree' : FileTree} {r : Rehearsal} {output : String}
    (h : (rehearse options).on "" tree = ((.ok r, output), tree')) :
    conduct r.settings r.mission = .ok r.conduct ∧ output = printed r.lines := by
  unfold rehearse at h
  obtain ⟨_, _, _, htext, h⟩ := on_bind_ok h
  obtain ⟨d, _, _, hd, h⟩ := on_bind_ok h
  obtain ⟨settings, _, _, hsettings, h⟩ := on_bind_ok h
  obtain ⟨mission, _, _, hmission, h⟩ := on_bind_ok h
  obtain ⟨_, _, _, hintroduction, h⟩ := on_bind_ok h
  obtain ⟨c, _, _, hconduct, h⟩ := on_bind_ok h
  obtain ⟨_, _, _, htable, h⟩ := on_bind_ok h
  obtain ⟨scan, _, _, hscan, h⟩ := on_bind_ok h
  obtain ⟨_, _, _, hverdict, h⟩ := on_bind_ok h
  obtain ⟨hpure, -⟩ := Prod.mk.inj h
  obtain ⟨hr, rfl⟩ := Prod.mk.inj hpure
  cases hr
  obtain rfl := (silent_readSettings options).output_eq htext
  obtain ⟨-, rfl⟩ := on_settle_ok hd
  obtain ⟨-, rfl⟩ := on_settle_ok hsettings
  obtain rfl := (silent_chooseMission options d).output_eq hmission
  obtain rfl := on_print_ok hintroduction
  obtain ⟨hc, rfl⟩ := on_settle_ok hconduct
  obtain rfl := on_print_ok htable
  obtain ⟨-, rfl⟩ := on_settle_ok hscan
  obtain rfl := on_print_ok hverdict
  refine ⟨hc, ?_⟩
  rw [String.empty_append, ← printed_append, ← printed_append, Rehearsal.lines]
  simp

structure MetricsTell (metrics : Value) (c : Conduct) (verdict : Verdict Binary64)
    (last : Sample Binary64) : Prop where
  success : metrics.field "success" = .ok (.bool verdict.success)
  distance : metrics.field "final_distance" = .ok (.float verdict.finalDistance)
  duration : metrics.field "duration" = .ok (.float last.time)
  motions : metrics.field "num_primitives" = .ok (.int c.session.motions.length)
  samples : metrics.field "num_samples" = .ok (.int c.samples.length)

structure SampleTell (v : Value) (s : Sample Binary64) : Prop where
  time : v.field "t" = .ok (.float s.time)
  x : v.field "x" = .ok (.float s.pose.x)
  y : v.field "y" = .ok (.float s.pose.y)
  theta : v.field "theta" = .ok (.float s.pose.theta)

theorem sampleTell_toValue (s : Sample Binary64) : SampleTell s.toValue s :=
  ⟨rfl, rfl, rfl, rfl⟩

/-- The record tells of motions that lead through the samples, of the last sample, and of a verdict,
and the samples were judged. -/
structure Tells (record : Value) (world : World Binary64) (step : TimeStep Binary64) (c : Conduct)
    (verdict : Verdict Binary64) (last : Sample Binary64) : Prop where
  motions : (do (← (← record.field "primitives").elements).mapM Motion.ofValue) =
    .ok c.session.motions
  samples : ∃ items, record.field "samples" = .ok (.list items) ∧
    List.Forall₂ SampleTell items c.samples
  final : ∃ sample, record.field "final" = .ok sample ∧ SampleTell sample last
  outcome : ∃ outcome, record.field "outcome" = .ok outcome ∧
    outcome.field "success" = .ok (.bool verdict.success) ∧
    outcome.field "final_distance" = .ok (.float verdict.finalDistance)
  metrics : ∃ metrics, record.field "metrics" = .ok metrics ∧ MetricsTell metrics c verdict last
  built : Trajectory.build c.session.motions world.start step = .ok c.samples
  ends : c.samples.getLast? = some last
  judged : world.goal.judge c.samples = .ok c.verdict

/-- The motions and samples of a run hold nothing that is no number, and there are no more of them
than an integer that is read can count. -/
structure Conduct.Numeric (c : Conduct) : Prop where
  motions : ∀ m ∈ c.session.motions, ∀ x ∈ m.numbers, x.isNaN = false
  samples : ∀ s ∈ c.samples, ∀ x ∈ s.numbers, x.isNaN = false
  counts : ∀ n ∈ [c.session.motions.length, c.samples.length], n < 10 ^ Decimal.digitLimit

instance (c : Conduct) : Decidable c.Numeric :=
  decidable_of_iff ((∀ m ∈ c.session.motions, ∀ x ∈ m.numbers, x.isNaN = false) ∧
      (∀ s ∈ c.samples, ∀ x ∈ s.numbers, x.isNaN = false) ∧
      ∀ n ∈ [c.session.motions.length, c.samples.length], n < 10 ^ Decimal.digitLimit)
    ⟨fun h => ⟨h.1, h.2.1, h.2.2⟩, fun h => ⟨h.motions, h.samples, h.counts⟩⟩

theorem storable_count {depth n : Nat} (h : n < 10 ^ Decimal.digitLimit) :
    (Value.int n).Storable depth := by
  refine .int depth ?_
  rw [Int.natAbs_natCast]
  exact Decimal.length_digits_le (by decide) h

section Record

variable {settings : Settings} {mission : Mission} {step : TimeStep Binary64} {c : Conduct}
  (h : Conducts settings mission step c)
include h

theorem Conducts.tells {verdict : Verdict Binary64} {metrics : List (String × Value)}
    (hmetrics : MetricsTell (.record metrics) c verdict c.session.live) :
    Tells (.record (Journal.runFields mission.id c.session.motions c.samples verdict metrics
      c.session.live)) mission.world step c verdict c.session.live where
  motions := Motion.mapM_ofValue _
  samples := ⟨_, rfl, List.forall₂_map_left_iff.2
    (List.forall₂_same.2 fun s _ => sampleTell_toValue s)⟩
  final := ⟨_, rfl, sampleTell_toValue _⟩
  outcome := ⟨_, rfl, rfl, rfl⟩
  metrics := ⟨_, rfl, hmetrics⟩
  built := h.trajectory
  ends := h.last
  judged := by
    rw [(mission.world.goal.judge_of_last h.last).2, h.verdict]
    rfl

theorem Conducts.metricsTell :
    MetricsTell (.record c.metrics.toFields) c c.verdict c.session.live := by
  rw [h.metrics]
  exact ⟨rfl, rfl, rfl, rfl, rfl⟩

theorem Conducts.journalRecord_eq :
    journalRecord mission c = .ok (.record (Journal.runFields mission.id c.session.motions c.samples
      c.verdict c.metrics.toFields c.session.live)) :=
  Journal.runRecord_of_last (mission.world.goal.judge_of_last h.last).1

theorem Conducts.archivable (hnumeric : c.Numeric) :
    Journal.Archivable c.session.motions c.samples c.metrics.toFields where
  motions := hnumeric.motions
  samples := hnumeric.samples
  metrics := by
    have hcounts := hnumeric.counts
    simp only [List.forall_mem_cons] at hcounts
    obtain ⟨hmotions, hsamples, -⟩ := hcounts
    rw [h.metrics]
    refine .record (by simp [RunMetrics.toFields]) ?_
    simp only [RunMetrics.toFields, List.foldl_nil, List.forall_mem_cons]
    exact ⟨.text _ _, .bool _ _, .float _ _, .float _ _, .float _ _, storable_count hsamples,
      storable_count hmotions, by simp⟩

/-- What is read from the line of a run tells the same, but for the bits of a distance that is no
number. -/
theorem Conducts.stored_tells (hnumeric : c.Numeric) :
    ∃ stored, Json.read (Json.write (.record (Journal.runFields mission.id c.session.motions
        c.samples c.verdict c.metrics.toFields c.session.live))) = .ok stored ∧
      Tells stored mission.world step c ⟨c.verdict.success, c.verdict.finalDistance.canonical⟩
        c.session.live := by
  have hkeeps := h.archivable hnumeric
  have hlast := (mission.world.goal.judge_of_last h.last).1
  have htime := hkeeps.samples _ (Journal.last_mem hlast) _ List.mem_cons_self
  refine ⟨_, Json.read_write (hkeeps.storable), ?_⟩
  rw [Value.canonical, hkeeps.canonicalFields hlast]
  apply h.tells
  rw [h.metrics]
  constructor <;>
    simp [RunMetrics.toFields, Value.canonicalFields, Value.canonical, Value.field, List.lookup,
      htime]

end Record

/-- The output ends with a table, an empty line, a scan and a verdict. The last line of the table
ends with a column that shows where a sample is: its position to two places and its heading in whole
degrees, filled up with spaces. -/
def Shows (output : String) (last : Sample Binary64) (verdict : Verdict Binary64) : Prop :=
  ∃ first rows front shown degree scan rest,
    last.pose.text = .ok shown ∧ Heading.wholeDegree last.pose.theta = .ok degree ∧
    shown = String.ofList ('(' :: (Decimal.fixed 2 last.pose.x ++ [',', ' '] ++
      Decimal.fixed 2 last.pose.y ++ [',', ' '])) ++ toString degree ++ "°)" ∧
    output = printed (first ++ PoseTable.lines rows ++
      [front ++ " " ++ shown ++ String.ofList (List.replicate (24 - shown.length) ' '), "", scan,
        "Outcome: " ++ (if verdict.success then "SUCCESS" else "MISSED") ++ rest])

theorem verdictLine_eq (c : Conduct) (goal : Goal Binary64) : ∃ rest, verdictLine c goal =
    "Outcome: " ++ (if c.verdict.success then "SUCCESS" else "MISSED") ++ rest := by
  unfold verdictLine
  generalize "Outcome: " ++ (if c.verdict.success then "SUCCESS" else "MISSED") = head
  simp only [String.append_assoc]
  exact ⟨_, rfl⟩

theorem shows_lines {r : Rehearsal} {step : TimeStep Binary64}
    (h : Conducts r.settings r.mission step r.conduct) :
    Shows (printed r.lines) r.conduct.session.live r.conduct.verdict := by
  obtain ⟨rows, row, hrows, hpose⟩ := h.last_row
  obtain ⟨rest, hrest⟩ := verdictLine_eq r.conduct r.mission.world.goal
  obtain ⟨front, hline⟩ := row.line_ends
  obtain ⟨degree, hdegree, -, -, hshown⟩ := Pose.text_eq_ok hpose
  refine ⟨introduction r.mission, rows, front, row.after, degree, scanLine r.scan, rest, hpose,
    hdegree, hshown, ?_⟩
  rw [Rehearsal.lines, hrows, hrest, PoseTable.lines_concat, hline]
  simp only [List.append_assoc, List.cons_append, List.nil_append]

structure Logs (tree logged : FileTree) (place : Place) (record : Value) : Prop where
  line : logged.content place = tree.content place ++ Journal.line record
  elsewhere : ∀ other, other ≠ place → logged.text? other = tree.text? other

theorem logs_of_sameTexts {tree opened : FileTree} {place : Place}
    (h : tree.SameTexts opened place) (record : Value) :
    Logs tree (opened.append place (Journal.line record)) place record := by
  refine ⟨?_, fun other hother => ?_⟩
  · rw [FileTree.content_append, h.here]
  · rw [FileTree.append, FileTree.text?_update_of_ne hother, h.elsewhere other hother]

/-- Nothing has changed, or there is a picture at the place of the chart that was asked for. -/
def Drawn (plot : Option String) (tree drawn : FileTree) : Prop :=
  drawn = tree ∨ ∃ path file place svg, plot = some path ∧ Chart.picturePath path = .ok file ∧
    tree.target (.ofText file) = .ok place ∧ drawn = tree.update place fun _ => svg

theorem writeJournal_on (settings : Settings) {mission : Mission} {c : Conduct} {record : Value}
    (h : journalRecord mission c = .ok record) (output : String) (tree : FileTree) :
    (∀ f refused, tree.prepare settings.journalPath = (.error f, refused) →
      (writeJournal settings mission c).on output tree = ((.error f, output), refused)) ∧
      ∀ place opened, tree.prepare settings.journalPath = (.ok place, opened) →
        (writeJournal settings mission c).on output tree =
          ((.ok (), output ++ printed ["Telemetry appended to " ++ settings.journalPath]),
            opened.append place (Journal.line record)) := by
  obtain ⟨hrefused, hopened⟩ := on_extend settings.journalPath (Journal.line record) output tree
  rw [writeJournal, h, on_bind, on_settle]
  dsimp only
  rw [on_bind]
  refine ⟨fun f refused hf => ?_, fun place opened ho => ?_⟩
  · rw [hrefused f refused hf]
  · rw [hopened place opened ho]
    rfl

theorem writeChart_on (path : String) (mission : Mission) (c : Conduct) (output : String)
    (tree : FileTree) :
    ∃ r more drawn, (writeChart path mission c).on output tree = ((r, output ++ more), drawn) ∧
      Drawn (some path) tree drawn := by
  have hrefused (f : Fault Binary64) : ∃ r more drawn,
      (((Except.error f : Except (Fault Binary64) Unit), output), tree) =
        ((r, output ++ more), drawn) ∧ Drawn (some path) tree drawn :=
    ⟨.error f, "", tree, by rw [String.append_empty], .inl rfl⟩
  unfold writeChart
  dsimp only
  generalize Chart.draw mission.world c.samples (some c.verdict.success) = drawing
  rw [on_bind, on_settle]
  cases drawing.fault with
  | some f => exact hrefused f
  | none =>
    dsimp only [Option.elim]
    rw [on_bind, on_settle]
    cases hfile : Chart.picturePath path with
    | error f => exact hrefused f
    | ok file =>
      obtain ⟨hnowhere, hwritten⟩ := on_write file drawing.svg output tree
      dsimp only
      rw [on_bind]
      cases htarget : tree.target (.ofText file) with
      | error f =>
        rw [hnowhere f htarget]
        exact hrefused f
      | ok place =>
        rw [hwritten place htarget]
        exact ⟨_, _, _, on_print _ _ _, .inr ⟨path, file, place, _, rfl, hfile, htarget, rfl⟩⟩

/-- After the journal a run ends, or draws its chart. -/
theorem conclude_on {options : Options} (hjournal : options.journal = true) {r : Rehearsal}
    {record : Value} (hrecord : journalRecord r.mission r.conduct = .ok record) (output : String)
    (tree : FileTree) :
    (∀ f refused, tree.prepare r.settings.journalPath = (.error f, refused) →
      (conclude options r).on output tree = ((.error f, output), refused)) ∧
      ∀ place opened, tree.prepare r.settings.journalPath = (.ok place, opened) →
        ∃ result more final,
          (conclude options r).on output tree = ((result, output ++ more), final) ∧
            Drawn options.plot (opened.append place (Journal.line record)) final := by
  obtain ⟨hrefused, hopened⟩ := writeJournal_on r.settings hrecord output tree
  unfold conclude
  rw [if_pos hjournal, on_bind]
  refine ⟨fun f refused hf => by rw [hrefused f refused hf], fun place opened ho => ?_⟩
  rw [hopened place opened ho]
  dsimp only
  cases hplot : options.plot.filter (!·.isEmpty) with
  | none => exact ⟨.ok (), _, _, rfl, .inl rfl⟩
  | some path =>
    have hpath : options.plot = some path := (Option.filter_eq_some_iff.1 hplot).1
    obtain ⟨result, more, final, hchart, hdrawn⟩ := writeChart_on path r.mission r.conduct
      (output ++ printed ["Telemetry appended to " ++ r.settings.journalPath])
      (opened.append place (Journal.line record))
    rw [String.append_assoc] at hchart
    exact ⟨result, _, final, hchart, hpath ▸ hdrawn⟩

def execute (args : List String) (tree : FileTree) : Report × FileTree :=
  run (m := StateM FileTree) args tree

theorem execute_eq {args : List String} {options : Options}
    (hparse : Options.parse args = .run options) (tree : FileTree) :
    execute args tree = match (perform options).on "" tree with
      | ((.ok (), output), final) => (⟨output, none, none⟩, final)
      | ((.error f, output), final) => (⟨output, none, some f⟩, final) := by
  unfold execute run
  rw [hparse]
  have hbind (k : Except (Fault Binary64) Unit × String → StateM FileTree Report) :
      ((perform options).run.run "" >>= k) tree =
        k ((perform options).on "" tree).1 ((perform options).on "" tree).2 := rfl
  refine (hbind _).trans ?_
  rcases (perform options).on "" tree with ⟨⟨_ | _, output⟩, final⟩ <;> rfl

/-- A run that ends before it comes to the journal leaves all files as they are. One that comes to
it has printed a table and a verdict on its last sample, and the record of the run tells the same:
its motions lead from the start through its samples to this last one, which the verdict is on, and
the metrics repeat it. Unless the journal cannot be opened, in which case no text changes, this
record becomes one line at the end of the journal, and nothing else is written but the chart. What
is read from this line tells the same again, where the motions and samples hold only numbers. -/
theorem reports_of_a_run_agree {args : List String} {options : Options}
    (hparse : Options.parse args = .run options) (hjournal : options.journal = true)
    (tree : FileTree) :
    ∃ outcome output, (rehearse options).on "" tree = ((outcome, output), tree) ∧
      (∀ f, outcome = .error f → execute args tree = (⟨output, none, some f⟩, tree)) ∧
      ∀ r, outcome = .ok r → ∃ step record last,
        TimeStep.check r.settings.dt = .ok step ∧
        Tells record r.mission.world step r.conduct r.conduct.verdict last ∧
        Shows output last r.conduct.verdict ∧
        (∃ text, Journal.line record = String.ofList (text ++ ['\n']) ∧ '\n' ∉ text ∧ '\r' ∉ text ∧
          (r.conduct.Numeric → ∃ stored, Json.read text = .ok stored ∧
            Tells stored r.mission.world step r.conduct
              ⟨r.conduct.verdict.success, r.conduct.verdict.finalDistance.canonical⟩ last)) ∧
        (∀ f refused, tree.prepare r.settings.journalPath = (.error f, refused) →
          execute args tree = (⟨output, none, some f⟩, refused) ∧ refused.files = tree.files) ∧
        ∀ place opened, tree.prepare r.settings.journalPath = (.ok place, opened) →
          ∃ more fault logged final, execute args tree = (⟨output ++ more, none, fault⟩, final) ∧
            Logs tree logged place record ∧ Drawn options.plot logged final := by
  rcases hrehearse : (rehearse options).on "" tree with ⟨⟨outcome, output⟩, same⟩
  have hsame := reads_rehearse options "" tree
  rw [hrehearse] at hsame
  obtain rfl : same = tree := hsame
  have hexecute := execute_eq hparse same
  rw [perform_eq, on_bind, hrehearse] at hexecute
  refine ⟨outcome, output, rfl, fun f hf => ?_, fun r hr => ?_⟩
  · rw [hexecute, hf]
  · subst hr
    dsimp only at hexecute
    obtain ⟨hconduct, rfl⟩ := rehearse_ok hrehearse
    obtain ⟨step, h⟩ := conduct_eq_ok hconduct
    obtain ⟨hfeed, hreturn⟩ := Journal.write_lineFree (.record (Journal.runFields r.mission.id
      r.conduct.session.motions r.conduct.samples r.conduct.verdict r.conduct.metrics.toFields
      r.conduct.session.live))
    obtain ⟨hrefused, hopened⟩ := conclude_on hjournal h.journalRecord_eq (printed r.lines) same
    obtain ⟨hfiles, htexts⟩ := same.prepare_texts r.settings.journalPath
    refine ⟨step, _, _, h.checked, h.tells h.metricsTell, shows_lines h,
      ⟨_, rfl, hfeed, hreturn, h.stored_tells⟩, fun f refused hf => ?_, fun place opened ho => ?_⟩
    · rw [hrefused f refused hf] at hexecute
      exact ⟨hexecute, hfiles f refused hf⟩
    · obtain ⟨result, more, final, hend, hdrawn⟩ := hopened place opened ho
      have hsame := htexts place opened ho
      rw [hend] at hexecute
      have hlogs := logs_of_sameTexts hsame
      cases result with
      | ok => exact ⟨more, none, _, final, hexecute, hlogs _, hdrawn⟩
      | error f => exact ⟨more, some f, _, final, hexecute, hlogs _, hdrawn⟩

/-- A short-sighted rover that logs to a file in the directory of the run. -/
def shortSight : String :=
  "\x7b\"sensor\": \x7b\"max_range\": \"0.25\"\x7d, \"logging\": \x7b\"telemetry_path\": \"log\"\x7d\x7d"

/-- A mission with a script, in a world that is empty. -/
def emptyHall : String :=
  "\x7b\"id\": \"sensor_stop\", \"world\": \x7b\"start\": \x7b\"x\": 1\x7d\x7d\x7d"

def desk : FileTree :=
  ⟨[(["c"], shortSight), (["m"], emptyHall)], []⟩

def outing : Options :=
  ⟨some "c", none, some "m", none, true⟩

theorem target_desk {name : String} (h : name ∈ ["c", "m", "log"]) :
    FilePath.ofText name = ⟨false, [name], false⟩ ∧ desk.target (.ofText name) = .ok [name] := by
  have hpath : FilePath.ofText name = ⟨false, [name], false⟩ := by
    fin_cases h <;> cbv
  refine ⟨hpath, ?_⟩
  rw [hpath, FileTree.target_ok_iff]
  refine ⟨[], [], name, ?_, rfl⟩
  fin_cases h <;> exact ⟨by cbv, rfl, rfl, rfl, rfl, rfl, rfl⟩

theorem read_desk {name text : String} (h : name ∈ ["c", "m", "log"])
    (htext : desk.text? [name] = some text) : desk.read name = .ok text := by
  rw [FileTree.read, (FileTree.find_of_target (target_desk h).2).1 text htext]
  rfl

/-- The script puts the rover at the origin and reads less than half a metre there. -/
theorem rehearse_outing : ∃ r output, (rehearse outing).on "" desk = ((.ok r, output), desk) ∧
    r.settings.journalPath = "log" ∧ r.conduct.session.motions.length = 1 ∧ r.conduct.Numeric := by
  let settings : Settings := { Settings.standard with journalPath := "log", range := 0.25 }
  let mission : Mission :=
    ⟨"sensor_stop", "sensor_stop", "", ⟨⟨1.0, 0.0, 0.0⟩, .origin, []⟩, []⟩
  have hsettings : (do Settings.ofDocument (← Settings.readDocument shortSight)).toOption =
      some settings := by decide +kernel
  have hmission : (Mission.read emptyHall).toOption = some mission := by decide +kernel
  have hconduct : (do
      let c ← conduct settings mission
      let _ ← Sensor.scan mission.world.obstacles c.session.pose settings.lidar
      .ok (c.session.motions.length, decide c.Numeric)).toOption = some (1, true) := by
    decide +kernel
  obtain ⟨d, hd, hs⟩ := bind_ok (eq_ok_of_toOption hsettings)
  obtain ⟨c, hc, hrest⟩ := bind_ok (eq_ok_of_toOption hconduct)
  obtain ⟨scan, hscan, hfacts⟩ := bind_ok hrest
  obtain ⟨hlength, hnumeric⟩ := Prod.mk.inj (Except.ok.inj hfacts)
  have hdisk {name text : String} (h : name ∈ ["c", "m", "log"])
      (htext : desk.text? [name] = some text) :
      (Disk.read name : StateM FileTree _) desk = (.ok text, desk) :=
    congrArg (·, desk) (read_desk h htext)
  have hread : (readSettings outing).on "" desk = ((.ok shortSight, ""), desk) := by
    show (onDisk (Disk.read "c")).on "" desk = _
    rw [on_onDisk, hdisk (by simp) rfl]
  have hchoose : (chooseMission outing d).on "" desk = ((.ok mission, ""), desk) := by
    show (onDisk (Disk.read "m") >>= fun text => settle (Mission.read text)).on "" desk = _
    rw [on_bind, on_onDisk, hdisk (by simp) rfl]
    exact congrArg (fun r => ((r, ""), desk)) (eq_ok_of_toOption hmission)
  simp only [rehearse, on_bind, hread, on_settle, hd, hs, hchoose, on_print, hc, hscan]
  exact ⟨_, _, rfl, rfl, hlength, of_decide_eq_true hnumeric⟩

theorem reports_of_a_run_agree_outing :
    Options.parse ["--config", "c", "--mission-file", "m"] = .run outing ∧ outing.journal = true ∧
      ∃ (r : Rehearsal) (output more : String) (fault : Option (Fault Binary64)) (final : FileTree)
        (step : TimeStep Binary64) (record stored : Value) (text : List Char)
        (last : Sample Binary64),
        execute ["--config", "c", "--mission-file", "m"] desk =
          (⟨output ++ more, none, fault⟩, final) ∧
        r.conduct.session.motions.length = 1 ∧
        Tells record r.mission.world step r.conduct r.conduct.verdict last ∧
        Shows output last r.conduct.verdict ∧ final.content ["log"] = Journal.line record ∧
        Journal.line record = String.ofList (text ++ ['\n']) ∧ Json.read text = .ok stored ∧
        Tells stored r.mission.world step r.conduct
          ⟨r.conduct.verdict.success, r.conduct.verdict.finalDistance.canonical⟩ last := by
  have hparse : Options.parse ["--config", "c", "--mission-file", "m"] = .run outing := by
    decide +kernel
  obtain ⟨outcome, output, hrun, -, hok⟩ := reports_of_a_run_agree hparse rfl desk
  obtain ⟨r, output', hrun', hpath, hlength, hnumeric⟩ := rehearse_outing
  obtain ⟨houtcome, rfl⟩ : outcome = .ok r ∧ output = output' := by
    rw [hrun'] at hrun
    cases hrun
    exact ⟨rfl, rfl⟩
  obtain ⟨step, record, last, -, htells, hshows, ⟨text, htext, -, -, hread⟩, -, hopened⟩ :=
    hok r houtcome
  obtain ⟨stored, hstored, hsame⟩ := hread hnumeric
  have hprepare : desk.prepare r.settings.journalPath = (.ok ["log"], desk.append ["log"] "") := by
    obtain ⟨htext, htarget⟩ := @target_desk "log" (by simp)
    have hmake : FileTree.makeDirectories (FilePath.ofText "log").rooted
        (FilePath.ofText "log").directory.names.reverse desk = (.ok (), desk) := by
      rw [htext]
      rfl
    rw [hpath, FileTree.prepare, hmake]
    dsimp only
    rw [FileTree.openFile, htarget]
    rfl
  obtain ⟨more, fault, logged, final, hend, hlogs, hdrawn⟩ := hopened _ _ hprepare
  obtain rfl : final = logged := by
    rcases hdrawn with hsame | ⟨_, _, _, _, hplot, -⟩
    · exact hsame
    · cases hplot
  refine ⟨hparse, rfl, r, output, more, fault, final, step, record, stored, text, last, hend,
    hlength, htells, hshows, ?_, htext, hstored, hsame⟩
  rw [hlogs.line]
  exact String.empty_append

end CommandLine

end PlanarDrive
