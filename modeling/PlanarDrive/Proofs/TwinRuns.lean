import PlanarDrive.Proofs.BlankSections
import PlanarDrive.Proofs.RunReport
import PlanarDrive.Proofs.TwinTrees

/-!
# Runs that begin alike

A run reads its settings and its mission, and after that it reads nothing. So two runs of the same
words that come to the same settings and the same mission, or fail in this with the same fault,
print the same and write the same. When the texts of their settings differ only in a section that is
blank in both of them, all runs are alike, but for those that take their mission from the settings:
such a run stumbles where the section that should name the mission is null, and does not where it is
left out or empty.
-/

namespace PlanarDrive.CommandLine

open Running

def Options.namesMission (options : Options) : Bool :=
  (options.missionFile.filter (!·.isEmpty)).isSome || (options.mission.filter (!·.isEmpty)).isSome

def chosenMission (options : Options) (tree : FileTree) (d : Document) :
    Except (Fault Binary64) Mission :=
  ((chooseMission options d).on "" tree).1.1

variable {options : Options} {tree tree' : FileTree} {d d' : Document}

theorem chooseMission_on (options : Options) (tree : FileTree) (d : Document) :
    (chooseMission options d).on "" tree = ((chosenMission options tree d, ""), tree) :=
  Prod.ext (Prod.ext rfl (silent_chooseMission options d "" tree))
    (reads_chooseMission options d "" tree)

theorem chosenMission_of_named (hnames : options.namesMission = true)
    (hfile : ∀ file ∈ options.missionFile.filter (!·.isEmpty),
      (do Mission.read (← tree'.read file)) = (do Mission.read (← tree.read file))) :
    chosenMission options tree' d' = chosenMission options tree d := by
  unfold Options.namesMission at hnames
  cases hmissionFile : options.missionFile.filter (!·.isEmpty) with
  | some file =>
    have hchoose (tree : FileTree) (d : Document) :
        chosenMission options tree d = (do Mission.read (← tree.read file)) := by
      unfold chosenMission chooseMission
      rw [hmissionFile]
      dsimp only
      rw [on_bind, on_onDisk]
      simp only [Disk.read]
      cases tree.read file <;> rfl
    rw [hchoose, hchoose, hfile file hmissionFile]
  | none =>
    unfold chosenMission chooseMission
    cases hmission : options.mission.filter (!·.isEmpty) with
    | some id =>
      rw [hmissionFile]
      rfl
    | none =>
      rw [hmissionFile, hmission] at hnames
      cases hnames

theorem settle_bind {β γ : Type} (r : Except (Fault Binary64) β)
    (f : β → Except (Fault Binary64) γ) :
    (settle (r >>= f) : Running (StateM FileTree) γ) = settle r >>= fun b => settle (f b) := by
  cases r <;> rfl

theorem chosenMission_of_unnamed (hnames : options.namesMission = false) :
    chosenMission options tree d = Settings.namedMission d := by
  obtain ⟨hmissionFile, hmission⟩ := Bool.or_eq_false_iff.1 hnames
  have hchoose : chooseMission options d =
      (settle (Settings.namedMission d) : Running (StateM FileTree) Mission) := by
    unfold chooseMission Settings.namedMission
    rw [Option.not_isSome_iff_eq_none.1 (Bool.eq_false_iff.1 hmissionFile),
      Option.not_isSome_iff_eq_none.1 (Bool.eq_false_iff.1 hmission), settle_bind]
    refine congrArg (settle (Settings.defaultMission d) >>= ·) (funext fun part => ?_)
    cases part with
    | plain value => cases value <;> simp only [settle_bind]
    | _ => simp only [settle_bind]
  rw [chosenMission, hchoose, on_settle]

def brief (options : Options) (tree : FileTree) (d : Document) :
    Except (Fault Binary64) (Settings × Mission) := do
  .ok (← Settings.ofDocument d, ← chosenMission options tree d)

/-- The settings of a run are read from a file, and they are this document. -/
def Starts (options : Options) (tree : FileTree) (d : Document) : Prop :=
  ∃ path text, options.settings = some path ∧ tree.read path = .ok text ∧
    Settings.readDocument text = .ok d

/-- A run from its settings and its mission on. -/
def present (options : Options) (settings : Settings) (mission : Mission) :
    Running (StateM FileTree) Unit := do
  print (introduction mission)
  let c ← settle (conduct settings mission)
  print (PoseTable.lines c.rows ++ [""])
  let scan ← settle (Sensor.scan mission.world.obstacles c.session.pose settings.lidar)
  print [scanLine scan, verdictLine c mission.world.goal]
  conclude options ⟨settings, mission, c, scan⟩

theorem perform_eq_present (options : Options) : perform options = (do
    let d ← settle (Settings.readDocument (← readSettings options))
    let settings ← settle (Settings.ofDocument d)
    present options settings (← chooseMission options d)) :=
  rfl

theorem writes_conclude (options : Options) (r : Rehearsal) : Writes (conclude options r) := by
  have hjournal : Writes (writeJournal r.settings r.mission r.conduct) :=
    .bind (.settle _) fun _ => .bind (.extend _ _) fun _ => .print _
  have hchart (path : String) : Writes (writeChart path r.mission r.conduct) :=
    .bind (.settle _) fun _ => .bind (.settle _) fun _ => .bind (.write _ _) fun _ => .print _
  unfold conclude
  dsimp only
  cases options.plot.filter (!·.isEmpty) with
  | none =>
    split
    · exact hjournal.bind fun _ => writes_pure _
    · exact writes_pure _
  | some path =>
    split
    · exact hjournal.bind fun _ => hchart path
    · exact hchart path

/-- What follows on the introduction. -/
theorem present_eq (options : Options) (settings : Settings) (mission : Mission) :
    ∃ rest, Writes rest ∧ present options settings mission =
      (print (introduction mission) >>= fun _ => rest) :=
  ⟨_, .bind (.settle _) fun _ => .bind (.print _) fun _ => .bind (.settle _) fun _ =>
    .bind (.print _) fun _ => writes_conclude _ _, rfl⟩

theorem perform_on (h : Starts options tree d) :
    (perform options).on "" tree = match brief options tree d with
      | .error f => ((.error f, ""), tree)
      | .ok (settings, mission) => (present options settings mission).on "" tree := by
  obtain ⟨path, text, hpath, hread, hd⟩ := h
  have hsettings : (readSettings options).on "" tree = ((.ok text, ""), tree) := by
    unfold readSettings
    rw [hpath]
    exact congrArg (fun r => ((r, ""), tree)) hread
  rw [perform_eq_present, on_bind, hsettings]
  dsimp only
  rw [on_bind, on_settle, hd]
  dsimp only
  rw [on_bind, on_settle, brief]
  cases Settings.ofDocument d with
  | error f => rfl
  | ok settings =>
    dsimp only
    rw [on_bind, chooseMission_on]
    cases chosenMission options tree d <;> rfl

theorem writes_present (options : Options) (settings : Settings) (mission : Mission) :
    Writes (present options settings mission) := by
  obtain ⟨rest, hrest, hpresent⟩ := present_eq options settings mission
  rw [hpresent]
  exact .bind (.print _) fun _ => hrest

/-- Runs that begin with the same settings and the same mission, or with the same fault, are alike
in twin trees. -/
theorem execute_twins {args : List String} (hparse : Options.parse args = .run options)
    (hstarts : Starts options tree d) (hstarts' : Starts options tree' d') {place : Place}
    {text text' : String} (htwins : FileTree.Twins place text text' tree tree')
    (hbrief : brief options tree' d' = brief options tree d) :
    FileTree.TwinAnswers place text text' (execute args tree) (execute args tree') := by
  rw [execute_eq hparse, execute_eq hparse, perform_on hstarts, perform_on hstarts', hbrief]
  cases brief options tree d with
  | error f => exact .mk _ htwins
  | ok begun =>
    obtain ⟨settings, mission⟩ := begun
    have hend := (writes_present options settings mission).twins htwins ""
    dsimp only
    generalize (present options settings mission).on "" tree = r,
      (present options settings mission).on "" tree' = r' at hend
    obtain ⟨⟨result, output⟩, hfinal⟩ := hend
    cases result <;> exact .mk _ hfinal

theorem execute_of_brief_error {args : List String} (hparse : Options.parse args = .run options)
    (hstarts : Starts options tree d) {f : Fault Binary64} (h : brief options tree d = .error f) :
    execute args tree = (⟨"", none, some f⟩, tree) := by
  rw [execute_eq hparse, perform_on hstarts, h]

/-- A run that knows its settings and its mission prints something. -/
theorem output_ne_empty {args : List String} (hparse : Options.parse args = .run options)
    (hstarts : Starts options tree d) {settings : Settings} {mission : Mission}
    (h : brief options tree d = .ok (settings, mission)) : (execute args tree).1.output ≠ "" := by
  obtain ⟨rest, hrest, hpresent⟩ := present_eq options settings mission
  obtain ⟨more, hmore⟩ := hrest.prints (printed (introduction mission)) tree
  have houtput : (execute args tree).1.output = printed (introduction mission) ++ more := by
    rw [execute_eq hparse, perform_on hstarts, h]
    dsimp only
    rw [hpresent, on_bind, on_print, String.empty_append]
    dsimp only
    rw [← hmore]
    rcases rest.on (printed (introduction mission)) tree with ⟨⟨_ | _, _⟩, _⟩ <;> rfl
  rw [houtput]
  intro hempty
  obtain ⟨hintroduction, -⟩ := String.append_eq_empty_iff.1 hempty
  rw [introduction, List.append_assoc, printed_append, String.append_eq_empty_iff] at hintroduction
  exact absurd hintroduction.1 (by simp [printed])

theorem execute_of_exit {args : List String} {code : Nat}
    (hparse : Options.parse args = .exit code) (tree : FileTree) :
    execute args tree = (⟨"", some code, none⟩, tree) := by
  unfold execute run
  rw [hparse]
  rfl

theorem execute_of_unset {args : List String} (hparse : Options.parse args = .run options)
    (hset : options.settings = none) (tree : FileTree) :
    execute args tree = (⟨"", none, some .wrongKind⟩, tree) := by
  have hperform : (perform options).on "" tree = ((.error .wrongKind, ""), tree) := by
    rw [perform_eq_present, on_bind, readSettings, hset]
    rfl
  rw [execute_eq hparse, hperform]

/-- The words start a run that takes its mission from the settings. -/
def LooksUpMission (args : List String) : Prop :=
  ∃ options, Options.parse args = .run options ∧ options.settings.isSome = true ∧
    options.namesMission = false

/-- A run that would start, but looks for its mission in a section that is null. -/
def Stumbles (args : List String) (d : Document) : Prop :=
  LooksUpMission args ∧ Settings.NullMaps d ∧ ∃ s, Settings.ofDocument d = .ok s

theorem execute_of_stumbles {args : List String} (hstumbles : Stumbles args d)
    (hroot : d.IsRecord d.root)
    (hstarts : ∀ options path, Options.parse args = .run options → options.settings = some path →
      Starts options tree d) :
    execute args tree = (⟨"", none, some .noFields⟩, tree) := by
  obtain ⟨⟨options, hparse, hset, hnames⟩, hnull, s, hs⟩ := hstumbles
  obtain ⟨path, hpath⟩ := Option.isSome_iff_exists.1 hset
  refine execute_of_brief_error hparse (hstarts options path hparse hpath) ?_
  rw [brief, hs, chosenMission_of_unnamed hnames, Settings.namedMission_of_null hroot hnull]
  rfl

/-- A run that takes its mission from the settings prints nothing where the section is null, and
goes on with a standard mission where it is blank in another way. -/
theorem output_eq_empty_iff {args : List String} (hlooks : LooksUpMission args)
    (hroot : d.IsRecord d.root) (hblank : d.Blank "maps") {s : Settings}
    (hs : Settings.ofDocument d = .ok s)
    (hstarts : ∀ options path, Options.parse args = .run options → options.settings = some path →
      Starts options tree d) :
    (execute args tree).1.output = "" ↔ Settings.NullMaps d := by
  refine ⟨fun hempty => ?_, fun hnull => ?_⟩
  · by_contra hnull
    obtain ⟨options, hparse, hset, hnames⟩ := hlooks
    obtain ⟨path, hpath⟩ := Option.isSome_iff_exists.1 hset
    have hbrief : brief options tree d = .ok (s, Catalog.firstCoordinates) := by
      rw [brief, hs, chosenMission_of_unnamed hnames,
        Settings.namedMission_of_blank hroot hblank hnull]
      rfl
    exact output_ne_empty hparse (hstarts options path hparse hpath) hbrief hempty
  · rw [execute_of_stumbles ⟨hlooks, hnull, s, hs⟩ hroot hstarts]

/-- The settings of a run stand at a place of a tree, and another text could stand there. The two
texts differ in one section, which is blank in both of them. When they are read for the mission as
well, this makes no difference. -/
structure BlankTwins (name : String) (args : List String) (tree : FileTree) (place : Place)
    (text text' : String) (d d' : Document) : Prop where
  there : tree.text? place = some text
  settings : ∀ options path, Options.parse args = .run options → options.settings = some path →
    tree.find (.ofText path) = .ok (.file place text)
  mission : ∀ options file, Options.parse args = .run options →
    options.missionFile.filter (!·.isEmpty) = some file →
    tree.find (.ofText file) = .ok (.file place text) → Mission.read text' = Mission.read text
  document : Settings.readDocument text = .ok d
  document' : Settings.readDocument text' = .ok d'
  same : Document.SameBut name d d'
  blank : d.Blank name
  blank' : d'.Blank name

namespace BlankTwins

variable {name : String} {args : List String} {place : Place} {text text' : String}
  (h : BlankTwins name args tree place text text' d d')
include h

theorem twins : FileTree.Twins place text text' tree (tree.update place fun _ => text') :=
  FileTree.twins_update h.there text'

theorem starts (hparse : Options.parse args = .run options) {path : String}
    (hpath : options.settings = some path) :
    Starts options tree d ∧ Starts options (tree.update place fun _ => text') d' := by
  have hfind := h.settings options path hparse hpath
  refine ⟨⟨path, text, hpath, ?_, h.document⟩,
    ⟨path, text', hpath, h.twins.read_of_find hfind (FileTree.text?_update_self tree place _),
      h.document'⟩⟩
  rw [FileTree.read, hfind]
  rfl

theorem mission_eq (hparse : Options.parse args = .run options) {file : String}
    (hfile : options.missionFile.filter (!·.isEmpty) = some file) :
    (do Mission.read (← (tree.update place fun _ => text').read file)) =
      (do Mission.read (← tree.read file)) := by
  obtain hread | ⟨t, ht⟩ := h.twins.read_eq_or file
  · rw [hread]
  · obtain rfl : text = t := Option.some.inj (h.there.symm.trans (FileTree.text?_of_find ht))
    rw [h.twins.read_of_find ht (FileTree.text?_update_self tree place _), FileTree.read, ht]
    exact h.mission options file hparse hfile ht

theorem ofDocument_eq : Settings.ofDocument d' = Settings.ofDocument d :=
  Settings.ofDocument_eq_of_blank h.same h.blank h.blank'

theorem stumbles_iff (hname : name ≠ "maps") : Stumbles args d ↔ Stumbles args d' := by
  rw [Stumbles, Stumbles, Settings.nullMaps_iff h.same hname, h.ofDocument_eq]

theorem brief_eq (hparse : Options.parse args = .run options)
    (hset : options.settings.isSome = true) (hstumbles : Stumbles args d ↔ Stumbles args d') :
    brief options (tree.update place fun _ => text') d' = brief options tree d := by
  rw [brief, brief, h.ofDocument_eq]
  cases hsettings : Settings.ofDocument d with
  | error f => dsimp only [bind, Except.bind]
  | ok settings =>
    have hmission : chosenMission options (tree.update place fun _ => text') d' =
        chosenMission options tree d := by
      cases hnames : options.namesMission with
      | true => exact chosenMission_of_named hnames fun file hfile => h.mission_eq hparse hfile
      | false =>
        have hlooks : LooksUpMission args := ⟨options, hparse, hset, hnames⟩
        have hnull : Settings.NullMaps d ↔ Settings.NullMaps d' :=
          ⟨fun hnull => (hstumbles.1 ⟨hlooks, hnull, settings, hsettings⟩).2.1, fun hnull =>
            (hstumbles.2 ⟨hlooks, hnull, settings, h.ofDocument_eq.trans hsettings⟩).2.1⟩
        rw [chosenMission_of_unnamed hnames, chosenMission_of_unnamed hnames,
          Settings.namedMission_eq_of_blank h.same h.blank h.blank' hnull]
    rw [hmission]

/-- The runs are alike when both of them stumble, or none. -/
theorem alike (hstumbles : Stumbles args d ↔ Stumbles args d') :
    FileTree.TwinAnswers place text text' (execute args tree)
      (execute args (tree.update place fun _ => text')) := by
  cases hparse : Options.parse args with
  | exit code =>
    rw [execute_of_exit hparse, execute_of_exit hparse]
    exact .mk _ h.twins
  | run options =>
    cases hpath : options.settings with
    | none =>
      rw [execute_of_unset hparse hpath, execute_of_unset hparse hpath]
      exact .mk _ h.twins
    | some path =>
      obtain ⟨hstarts, hstarts'⟩ := h.starts hparse hpath
      exact execute_twins hparse hstarts hstarts' h.twins
        (h.brief_eq hparse (by rw [hpath]; rfl) hstumbles)

theorem execute_eq_of_stumbles (hstumbles : Stumbles args d) :
    execute args tree = (⟨"", none, some .noFields⟩, tree) :=
  execute_of_stumbles hstumbles h.same.isRecord fun _ _ hparse hpath => (h.starts hparse hpath).1

/-- When one run stumbles and the other does not, the section names the mission, and only the one
that does not stumble prints something. -/
theorem report_ne (hstumbles : ¬ (Stumbles args d ↔ Stumbles args d')) :
    name = "maps" ∧
      (execute args (tree.update place fun _ => text')).1 ≠ (execute args tree).1 := by
  have hname : name = "maps" := by
    by_contra hname
    exact hstumbles (h.stumbles_iff hname)
  subst hname
  obtain ⟨hlooks, ⟨s, hs⟩, hnull⟩ : LooksUpMission args ∧
      (∃ s, Settings.ofDocument d = .ok s) ∧ ¬ (Settings.NullMaps d ↔ Settings.NullMaps d') := by
    rw [Stumbles, Stumbles, h.ofDocument_eq] at hstumbles
    tauto
  -- Whether anything is printed tells whether the section is null.
  refine ⟨rfl, fun hsame => hnull ?_⟩
  rw [← output_eq_empty_iff hlooks h.same.isRecord h.blank hs
      fun _ _ hparse hpath => (h.starts hparse hpath).1,
    ← output_eq_empty_iff hlooks h.same.isRecord' h.blank' (h.ofDocument_eq.trans hs)
      fun _ _ hparse hpath => (h.starts hparse hpath).2, hsame]

end BlankTwins

/-- What settings hold under a key is its own converted value, or its default where it has none, and
documents that hold the same under a key give the same. Settings whose sections are records, null or
left out are refused only for a value that is there and cannot be converted. Two texts of the
settings that differ in one section, which is blank in both, give the same settings, and the runs
that read them report the same and write the same. But a run that takes its mission from the
settings stumbles at a section that should name it and is null: it fails before it has done
anything, and when the other run does not stumble, the two reports differ. -/
theorem keys_act_alone_and_blank_sections_alike (d d' : Document) :
    (∀ s, Settings.ofDocument d = .ok s → (∀ k : Settings.Key, k.settle d = .ok (k.get s)) ∧
      ∀ R s', d.Matching d' R → Settings.ofDocument d' = .ok s' → ∀ k : Settings.Key,
        Option.Rel (Datum.Matched R) (k.value? d) (k.value? d') → k.get s' = k.get s) ∧
    (d.IsRecord d.root → (∀ k : Settings.Key, d.IsSection k.part) →
      ∀ f, Settings.ofDocument d = .error f → ∃ (k : Settings.Key) (value : Datum),
        k.value? d = some value ∧ k.convert d value = .error f) ∧
    ∀ name args tree place text text', BlankTwins name args tree place text text' d d' →
      Settings.ofDocument d' = Settings.ofDocument d ∧
      (Stumbles args d → execute args tree = (⟨"", none, some .noFields⟩, tree)) ∧
      ((Stumbles args d ↔ Stumbles args d') ∧
          FileTree.TwinAnswers place text text' (execute args tree)
            (execute args (tree.update place fun _ => text')) ∨
        ¬ (Stumbles args d ↔ Stumbles args d') ∧ name = "maps" ∧
          (execute args (tree.update place fun _ => text')).1 ≠ (execute args tree).1) := by
  refine ⟨fun s hs => ⟨Settings.settle_of_ofDocument hs, fun R s' hR hs' k hvalue => ?_⟩,
    fun hroot hpart f hf => ?_, fun name args tree place text text' h => ?_⟩
  · have hsettle := Settings.Key.settle_eq_of_matching hR hvalue
    rw [Settings.settle_of_ofDocument hs, Settings.settle_of_ofDocument hs'] at hsettle
    exact Except.ok.inj hsettle
  · obtain ⟨k, hk⟩ := Settings.exists_settle_of_ofDocument hroot hpart hf
    exact ⟨k, Settings.Key.exists_value_of_settle hk⟩
  · refine ⟨h.ofDocument_eq, h.execute_eq_of_stumbles, ?_⟩
    by_cases hstumbles : Stumbles args d ↔ Stumbles args d'
    · exact .inl ⟨hstumbles, h.alike hstumbles⟩
    · exact .inr ⟨hstumbles, h.report_ne hstumbles⟩

def sheet (text : String) : FileTree :=
  ⟨[(["c"], text)], []⟩

def sheetWords : List String :=
  ["--config", "c"]

def sheetOptions : Options :=
  ⟨some "c", none, none, none, true⟩

theorem parse_sheetWords : Options.parse sheetWords = .run sheetOptions := by
  decide +kernel

/-- A text is read by way of its nodes, whose equality is decidable. -/
theorem readDocument_eq {text : String} {g : Yaml.Graph} {d : Document}
    (hallowed : text.toList.all Yaml.isAllowed = true)
    (hgraph : (do Yaml.Graph.ofTokens (← Yaml.Token.all
      (Text.unifyLineEnds [] text.toList))).toOption = some (some g))
    (hdocument : g.document.map (fun d => if d.isNothing d.root then .ofValue (.record []) else d) =
      .ok d) : Settings.readDocument text = .ok d := by
  obtain ⟨tokens, htokens, hgraph⟩ := bind_ok (eq_ok_of_toOption hgraph)
  rw [← hdocument, Settings.readDocument, Yaml.read, hallowed, htokens]
  dsimp only [bind, Except.bind, Bool.not_true]
  rw [hgraph]
  rfl

theorem blankTwins_sheet {name text text' : String}
    (document : Settings.readDocument text = .ok d)
    (document' : Settings.readDocument text' = .ok d') (same : Document.SameBut name d d')
    (blank : d.Blank name) (blank' : d'.Blank name) :
    BlankTwins name sheetWords (sheet text) ["c"] text text' d d' := by
  have hpath : FilePath.ofText "c" = ⟨false, ["c"], false⟩ := by
    cbv
  have htarget : (sheet text).target (.ofText "c") = .ok ["c"] := by
    rw [hpath, FileTree.target_ok_iff]
    exact ⟨[], [], "c", ⟨by cbv, rfl, rfl, rfl, rfl, rfl, rfl⟩, rfl⟩
  refine ⟨rfl, fun options path hparse hset => ?_, fun options file hparse hfile => ?_, document,
    document', same, blank, blank'⟩
  · rw [parse_sheetWords] at hparse
    cases hparse
    cases hset
    exact (FileTree.find_of_target htarget).1 text rfl
  · rw [parse_sheetWords] at hparse
    cases hparse
    cases hfile

def idleSensor : String :=
  "\x7b\"sensor\": \x7b\x7d, \"logging\": \x7b\"telemetry_path\": []\x7d\x7d"

def idleSensorDocument : Document :=
  ⟨.link 0, [(3, .list []),
    (2, .record [(.plain (.text "telemetry_path"), .link 3)]), (1, .record []),
    (0, .record [(.plain (.text "sensor"), .link 1), (.plain (.text "logging"), .link 2)])]⟩

/-- The same without this section, so that all other places have moved. -/
def noSensor : String :=
  "\x7b\"logging\": \x7b\"telemetry_path\": []\x7d\x7d"

def noSensorDocument : Document :=
  ⟨.link 0, [(2, .list []),
    (1, .record [(.plain (.text "telemetry_path"), .link 2)]),
    (0, .record [(.plain (.text "logging"), .link 1)])]⟩

def nullMaps : String :=
  "\x7b\"maps\": \x7d"

def nullMapsDocument : Document :=
  ⟨.link 0, [(0, .record [(.plain (.text "maps"), .plain .null)])]⟩

/-- Places of the second document have numbers that are lower by one. -/
def Shifted (a b : Nat) : Prop :=
  a = b + 1 ∧ b ∈ [1, 2]

theorem matching_idleSensor : idleSensorDocument.Matching noSensorDocument Shifted where
  biUnique := ⟨fun _ _ _ h h' => h.1.trans h'.1.symm, fun _ _ _ h h' => by
    have := h.1.symm.trans h'.1
    omega⟩
  branch := by
    rintro _ b ⟨rfl, hb⟩
    fin_cases hb
    · exact .some (.record (.cons ⟨.plain _, .link ⟨rfl, by simp⟩⟩ .nil))
    · exact .some (.list .nil)

theorem blankTwins_idleSensor : BlankTwins "sensor" sheetWords (sheet idleSensor) ["c"] idleSensor
    noSensor idleSensorDocument noSensorDocument := by
  have hread : Settings.readDocument idleSensor = .ok idleSensorDocument :=
    readDocument_eq (g := ⟨.link 0, [
      (0, .record .record [(.text .text "sensor", .link 1), (.text .text "logging", .link 2)]),
      (2, .record .record [(.text .text "telemetry_path", .link 3)]),
      (3, .list .list []), (1, .record .record [])]⟩) (by decide +kernel) (by decide +kernel) rfl
  have hread' : Settings.readDocument noSensor = .ok noSensorDocument :=
    readDocument_eq (g := ⟨.link 0, [(0, .record .record [(.text .text "logging", .link 1)]),
      (1, .record .record [(.text .text "telemetry_path", .link 2)]), (2, .list .list [])]⟩)
      (by decide +kernel) (by decide +kernel) rfl
  refine blankTwins_sheet hread hread' ⟨.inr ⟨_, rfl⟩, .inr ⟨_, rfl⟩, Shifted, matching_idleSensor,
    fun other hother => ?_⟩ (.empty rfl (.inr ⟨_, rfl⟩) rfl) (.absent rfl)
  by_cases hlogging : other = "logging"
  · subst hlogging
    exact .some (.link ⟨rfl, by simp⟩)
  · rw [Document.member?_eq_none (d := idleSensorDocument) rfl
        (by simp [Datum.key?, Ne.symm hother, Ne.symm hlogging]),
      Document.member?_eq_none (d := noSensorDocument) rfl (by simp [Datum.key?, Ne.symm hlogging])]
    exact .none

theorem blankTwins_nullMaps : BlankTwins "maps" sheetWords (sheet nullMaps) ["c"] nullMaps
    "\x7b\x7d" nullMapsDocument (.ofValue (.record [])) := by
  have hread : Settings.readDocument nullMaps = .ok nullMapsDocument :=
    readDocument_eq (g := ⟨.link 0, [(0, .record .record [(.text .text "maps", .text .null "")])]⟩)
      (by decide +kernel) (by decide +kernel) rfl
  have hread' : Settings.readDocument "\x7b\x7d" = .ok (.ofValue (.record [])) :=
    readDocument_eq (g := ⟨.link 0, [(0, .record .record [])]⟩) (by decide +kernel)
      (by decide +kernel) rfl
  refine blankTwins_sheet hread hread' ⟨.inr ⟨_, rfl⟩, .inl ⟨_, rfl⟩, fun _ _ => False,
    ⟨⟨fun _ _ _ h => h.elim, fun _ _ _ h => h.elim⟩, fun h => h.elim⟩, fun other hother => ?_⟩
    (.null rfl) (.absent rfl)
  rw [Document.member?_eq_none (d := nullMapsDocument) rfl (by simp [Datum.key?, Ne.symm hother])]
  exact .none

def hastyDocument : Document :=
  .ofValue (.record [("sim", .record [("dt", .text "soon")])])

theorem stumbles_nullMaps : Stumbles sheetWords nullMapsDocument :=
  ⟨⟨sheetOptions, parse_sheetWords, rfl, rfl⟩, rfl, .standard,
    eq_ok_of_toOption (by decide +kernel)⟩

theorem keys_act_alone_and_blank_sections_alike_idleSensor :
    (BlankTwins "sensor" sheetWords (sheet idleSensor) ["c"] idleSensor noSensor idleSensorDocument
        noSensorDocument ∧
      FileTree.TwinAnswers ["c"] idleSensor noSensor (execute sheetWords (sheet idleSensor))
        (execute sheetWords (sheet noSensor))) ∧
    (∃ s s', Settings.ofDocument idleSensorDocument = .ok s ∧
      Settings.ofDocument noSensorDocument = .ok s' ∧ s.journalPath = "[]" ∧
      (∀ k : Settings.Key, k.settle idleSensorDocument = .ok (k.get s)) ∧
      Settings.Key.journalPath.get s' = Settings.Key.journalPath.get s) ∧
    (Settings.ofDocument hastyDocument = .error .notNumeric ∧
      ∃ (k : Settings.Key) (value : Datum), k.value? hastyDocument = some value ∧
        k.convert hastyDocument value = .error .notNumeric) ∧
    Stumbles sheetWords nullMapsDocument ∧
      execute sheetWords (sheet nullMaps) = (⟨"", none, some .noFields⟩, sheet nullMaps) := by
  have hs : Settings.ofDocument idleSensorDocument =
      .ok { Settings.standard with journalPath := "[]" } :=
    eq_ok_of_toOption (by decide +kernel)
  have hs' : Settings.ofDocument noSensorDocument =
      .ok { Settings.standard with journalPath := "[]" } :=
    eq_ok_of_toOption (by decide +kernel)
  have hidle := keys_act_alone_and_blank_sections_alike idleSensorDocument noSensorDocument
  obtain ⟨hkeys, hsame⟩ := hidle.1 _ hs
  refine ⟨⟨blankTwins_idleSensor, ?_⟩, ⟨_, _, hs, hs', rfl, hkeys,
    hsame _ _ matching_idleSensor hs' .journalPath (.some (.link ⟨rfl, by simp⟩))⟩, ⟨rfl, ?_⟩,
    stumbles_nullMaps, ?_⟩
  · obtain ⟨-, hend⟩ | ⟨-, hname, -⟩ := (hidle.2.2 _ _ _ _ _ _ blankTwins_idleSensor).2.2
    · exact hend
    · exact absurd hname (by decide)
  · refine (keys_act_alone_and_blank_sections_alike hastyDocument hastyDocument).2.1 (.inl ⟨_, rfl⟩)
      (fun k part hpart => .inr ?_) _ rfl
    cases k <;> cases hpart
    exact .inl ⟨_, rfl⟩
  · exact ((keys_act_alone_and_blank_sections_alike _ _).2.2 _ _ _ _ _ _ blankTwins_nullMaps).2.1
      stumbles_nullMaps

/-- The run goes on with a standard mission when there is no section, and stops when it is null. -/
theorem null_maps_stop_a_run :
    BlankTwins "maps" sheetWords (sheet nullMaps) ["c"] nullMaps "\x7b\x7d" nullMapsDocument
        (.ofValue (.record [])) ∧
      execute sheetWords (sheet nullMaps) = (⟨"", none, some .noFields⟩, sheet nullMaps) ∧
      (execute sheetWords (sheet "\x7b\x7d")).1 ≠ (execute sheetWords (sheet nullMaps)).1 := by
  refine ⟨blankTwins_nullMaps, blankTwins_nullMaps.execute_eq_of_stumbles stumbles_nullMaps,
    (blankTwins_nullMaps.report_ne fun h => ?_).2⟩
  obtain ⟨-, hnull, -⟩ := h.1 stumbles_nullMaps
  cases hnull

end PlanarDrive.CommandLine
