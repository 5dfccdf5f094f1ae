import PlanarDrive.Proofs.FlatRows
import PlanarDrive.Proofs.JournalFile

/-!
# Journals only grow

Any number of journals may be opened at one path, written to and closed in any order. A record that
is given to an open journal becomes the next line of the file, and nothing else changes the text. So
what was there stays, and the file is read as the old rows and then the logged ones, each of which
holds the leaves of its own record.
-/

namespace PlanarDrive

namespace Journal

open FileTree Text

/-- What is done with the journals at a path. They are numbered in the order of their opening. -/
inductive Deed
  | start
  | log (i : Nat) (fields : List (String × Value))
  | logRun (i : Nat) (mission : String) (motions : List (Motion Binary64))
    (samples : List (Sample Binary64)) (verdict : Verdict Binary64) (metrics : Value)
  | close (i : Nat)

/-- A journal that is open for some deeds, the one with the next number. -/
def Deed.block (i : Nat) (inside : List Deed) : List Deed :=
  .start :: (inside ++ [.close i])

def Deed.journal? : Deed → Option Nat
  | .start => none
  | .log i _ | .logRun i .. | .close i => some i

/-- The record that a deed gives to its journal. A run without samples has none. -/
def Deed.given? : Deed → Option (Nat × List (String × Value))
  | .log i fields => some (i, fields)
  | .logRun i mission motions samples verdict metrics =>
    match runRecord mission motions samples verdict metrics with
    | .ok (.record fields) => some (i, fields)
    | _ => none
  | _ => none

structure Desk where
  journals : List Journal
  tree : FileTree

namespace Desk

def log (d : Desk) (i : Nat) (record : Value) : Desk :=
  match d.journals[i]? with
  | some j => { d with tree := j.log record d.tree }
  | none => d

def step (path : String) (d : Desk) : Deed → Desk
  | .start =>
    match Journal.start path d.tree with
    | (.ok j, tree) => ⟨d.journals ++ [j], tree⟩
    | (.error _, tree) => { d with tree := tree }
  | .log i fields => d.log i (.record fields)
  | .logRun i mission motions samples verdict metrics =>
    match runRecord mission motions samples verdict metrics with
    | .ok record => d.log i record
    | .error _ => d
  | .close i => { d with journals := d.journals.modify i Journal.close }

def run (path : String) (d : Desk) (deeds : List Deed) : Desk :=
  deeds.foldl (step path) d

@[simp] theorem run_nil (path : String) (d : Desk) : d.run path [] = d :=
  rfl

theorem run_append (path : String) (d : Desk) (deeds more : List Deed) :
    d.run path (deeds ++ more) = (d.run path deeds).run path more :=
  List.foldl_append

theorem run_concat (path : String) (d : Desk) (deeds : List Deed) (deed : Deed) :
    d.run path (deeds ++ [deed]) = (d.run path deeds).step path deed :=
  run_append path d deeds [deed]

end Desk

def openAfter (flags : List Bool) : Deed → List Bool
  | .start => flags ++ [true]
  | .close i => flags.set i false
  | _ => flags

def accepted (flags : List Bool) (deed : Deed) : List (List (String × Value)) :=
  match deed.given? with
  | some (i, fields) => if flags[i]? = some true then [fields] else []
  | none => []

/-- All records that were given to open journals, in order. -/
def logged : List Bool → List Deed → List (List (String × Value))
  | _, [] => []
  | flags, deed :: rest => accepted flags deed ++ logged (openAfter flags deed) rest

theorem runRecord_record {mission : String} {motions : List (Motion Binary64)}
    {samples : List (Sample Binary64)} {verdict : Verdict Binary64} {metrics record : Value}
    (h : runRecord mission motions samples verdict metrics = .ok record) :
    ∃ fields, record = .record fields := by
  unfold runRecord at h
  cases hlast : Trajectory.last samples with
  | error f => rw [hlast] at h; cases h
  | ok last =>
    rw [hlast] at h
    cases h
    exact ⟨_, rfl⟩

section Steps

variable {path : String} {place : Place} {d : Desk} {flags : List Bool}

/-- The journals of a desk write to one file and are open as the flags say. -/
structure Desk.Follows (d : Desk) (path : String) (place : Place) (flags : List Bool) : Prop where
  journals : d.journals = flags.map fun isOpen => ⟨place, isOpen⟩
  hosts : Hosts d.tree path place

theorem Desk.Follows.log (h : d.Follows path place flags) (i : Nat)
    (fields : List (String × Value)) :
    (d.log i (.record fields)).Follows path place flags ∧
      (d.log i (.record fields)).tree.content place = d.tree.content place ++
        linesOf (if flags[i]? = some true then [fields] else []) := by
  have hjournal : d.journals[i]? = flags[i]?.map fun isOpen => ⟨place, isOpen⟩ := by
    rw [h.journals, List.getElem?_map]
  unfold Desk.log
  rw [hjournal]
  cases flags[i]? with
  | none => exact ⟨h, by simp⟩
  | some isOpen =>
    cases isOpen with
    | false => exact ⟨h, by simp [Journal.log]⟩
    | true =>
      refine ⟨⟨h.journals, h.hosts.append _⟩, ?_⟩
      simp [Journal.log, linesOf_cons]

theorem Desk.step_given {deed : Deed} {i : Nat} {fields : List (String × Value)}
    (h : deed.given? = some (i, fields)) : d.step path deed = d.log i (.record fields) := by
  cases deed with
  | log j record =>
    cases h
    rfl
  | logRun j mission motions samples verdict metrics =>
    simp only [Deed.given?] at h
    split at h
    · next hrecord =>
      cases h
      rw [Desk.step, hrecord]
    · cases h
  | start => cases h
  | close j => cases h

theorem Desk.step_logRun {i : Nat} {mission : String} {motions : List (Motion Binary64)}
    {samples : List (Sample Binary64)} {verdict : Verdict Binary64} {metrics : Value}
    (h : (Deed.logRun i mission motions samples verdict metrics).given? = none) :
    d.step path (.logRun i mission motions samples verdict metrics) = d := by
  rw [Desk.step]
  cases hrecord : runRecord mission motions samples verdict metrics with
  | error f => rfl
  | ok record =>
    obtain ⟨fields, rfl⟩ := runRecord_record hrecord
    rw [Deed.given?, hrecord] at h
    cases h

/-- One deed adds the line of its record to the text if its journal is open, and nothing else. -/
theorem Desk.Follows.step (h : d.Follows path place flags) (deed : Deed) :
    (d.step path deed).Follows path place (openAfter flags deed) ∧
      (d.step path deed).tree.content place =
        d.tree.content place ++ linesOf (accepted flags deed) := by
  cases deed with
  | start =>
    rw [Desk.step, h.hosts.start]
    exact ⟨⟨by simp [openAfter, h.journals], h.hosts.append _⟩, by simp [accepted, Deed.given?]⟩
  | close i =>
    refine ⟨⟨?_, h.hosts⟩, by simp [accepted, Deed.given?, Desk.step]⟩
    simp only [Desk.step, openAfter, h.journals]
    apply List.ext_getElem?
    intro k
    by_cases hk : i = k
    · subst hk
      cases hi : flags[i]? with
      | none => simp_all
      | some isOpen =>
        have hlt := (List.getElem?_eq_some_iff.1 hi).1
        simp [hlt, Journal.close]
    · simp [hk]
  | log i fields => exact h.log i fields
  | logRun i mission motions samples verdict metrics =>
    cases hgiven : (Deed.logRun i mission motions samples verdict metrics).given? with
    | none =>
      rw [Desk.step_logRun hgiven, accepted, hgiven]
      exact ⟨h, by simp⟩
    | some entry =>
      obtain ⟨j, fields⟩ := entry
      rw [Desk.step_given hgiven, accepted, hgiven]
      exact h.log j fields

/-- After any deeds the text is what it was and the lines of the records logged since. -/
theorem Desk.Follows.run (h : d.Follows path place flags) (deeds : List Deed) :
    (d.run path deeds).Follows path place (deeds.foldl openAfter flags) ∧
      (d.run path deeds).tree.content place =
        d.tree.content place ++ linesOf (logged flags deeds) := by
  induction deeds generalizing d flags with
  | nil => exact ⟨h, by simp [logged]⟩
  | cons deed deeds ih =>
    obtain ⟨hfollows, hcontent⟩ := h.step deed
    obtain ⟨hrun, htext⟩ := ih hfollows
    refine ⟨hrun, ?_⟩
    rw [logged, linesOf_append, ← String.append_assoc, ← hcontent]
    exact htext

theorem Desk.Follows.isOpen_iff (h : d.Follows path place flags) {i : Nat} {j : Journal}
    (hj : d.journals[i]? = some j) : flags[i]? = some j.isOpen := by
  rw [h.journals, List.getElem?_map, Option.map_eq_some_iff] at hj
  obtain ⟨isOpen, hflag, rfl⟩ := hj
  exact hflag

theorem Desk.closed_step {i : Nat} {j : Journal} (hj : d.journals[i]? = some j)
    (hclosed : j.isOpen = false) (deed : Deed) : (d.step path deed).journals[i]? = some j := by
  have hlog (k : Nat) (record : Value) : (d.log k record).journals = d.journals := by
    unfold Desk.log
    split <;> rfl
  cases deed with
  | start =>
    simp only [Desk.step]
    split
    · rw [List.getElem?_append_left (List.getElem?_eq_some_iff.1 hj).1, hj]
    · exact hj
  | log k fields => rw [Desk.step, hlog, hj]
  | logRun k mission motions samples verdict metrics =>
    simp only [Desk.step]
    split
    · rw [hlog, hj]
    · exact hj
  | close k =>
    obtain ⟨file, isOpen⟩ := j
    cases hclosed
    rw [Desk.step, List.getElem?_modify, hj]
    by_cases hk : k = i <;> simp [hk, Journal.close]

/-- Nothing is done with a closed journal. -/
theorem Desk.step_of_closed {i : Nat} {j : Journal} (hj : d.journals[i]? = some j)
    (hclosed : j.isOpen = false) {deed : Deed} (hdeed : deed.journal? = some i) :
    d.step path deed = d := by
  have hlog (record : Value) : d.log i record = d := by
    rw [Desk.log, hj]
    simp [Journal.log, hclosed]
  cases deed with
  | start => cases hdeed
  | log k fields =>
    cases hdeed
    exact hlog _
  | logRun k mission motions samples verdict metrics =>
    cases hdeed
    simp only [Desk.step]
    split
    · exact hlog _
    · rfl
  | close k =>
    cases hdeed
    have hsame : d.journals.modify i Journal.close = d.journals := by
      apply List.ext_getElem?
      intro k
      by_cases hk : i = k
      · subst hk
        rw [List.getElem?_modify_eq, hj]
        show some j.close = some j
        rw [Journal.close, ← hclosed]
      · rw [List.getElem?_modify_ne _ _ hk]
    rw [Desk.step, hsame]

theorem Desk.closed_run {i : Nat} {j : Journal} (hj : d.journals[i]? = some j)
    (hclosed : j.isOpen = false) (deeds : List Deed) :
    (d.run path deeds).journals[i]? = some j := by
  induction deeds generalizing d with
  | nil => exact hj
  | cons deed deeds ih => exact ih (Desk.closed_step hj hclosed deed)

end Steps

def rowsAfter (old : String) (records : List (List (String × Value))) :
    List (List (String × Value)) :=
  ((lines old).filterMap object? ++ records.map Value.canonicalFields).map Value.flatten

theorem Table.rows_tail (t : Table) (count : Nat) :
    (t.tail count).rows = t.rows.drop (t.rows.length - count) := by
  have hcount : ¬(count : Int) < 0 := by omega
  simp [Table.tail, hcount]

/-- What becomes of a file with an old text when deeds are done at its path. -/
structure KeepsRecords (tree : FileTree) (path : String) (place : Place) (old : String)
    (deeds : List Deed) : Prop where
  /-- The old text stays, and the lines of the logged records follow it. -/
  text : (Desk.run path ⟨[], tree⟩ deeds).tree.content place = old ++ linesOf (logged [] deeds)
  /-- A record that an open journal is given becomes one line at the end. -/
  appends : ∀ before deed after i fields j, deeds = before ++ deed :: after →
    deed.given? = some (i, fields) → (Desk.run path ⟨[], tree⟩ before).journals[i]? = some j →
    j.isOpen = true → (Desk.run path ⟨[], tree⟩ (before ++ [deed])).tree.content place =
      (Desk.run path ⟨[], tree⟩ before).tree.content place ++ line (.record fields)
  /-- A line has one line break, at its end, and holds its record. -/
  readsBack : ∀ fields ∈ logged [] deeds, ∃ text,
    line (.record fields) = String.ofList (text ++ ['\n']) ∧ '\n' ∉ text ∧ '\r' ∉ text ∧
      Json.read text = .ok (Value.record fields).canonical
  /-- Nothing is done with a journal that was closed. -/
  afterClose : ∀ before i middle deed after,
    deeds = before ++ .close i :: (middle ++ deed :: after) →
    i < (Desk.run path ⟨[], tree⟩ before).journals.length → deed.journal? = some i →
    Desk.run path ⟨[], tree⟩ (before ++ .close i :: (middle ++ [deed])) =
      Desk.run path ⟨[], tree⟩ (before ++ .close i :: middle)
  /-- The old rows and those of the logged records are loaded, cut to the last ones, in columns that
  stand as their names first appear in all rows. -/
  loads : ∀ count : Nat, ∃ table,
    Table.load (Desk.run path ⟨[], tree⟩ deeds).tree path count = .ok table ∧
      table.columns = ((rowsAfter old (logged [] deeds)).flatMap (·.map Prod.fst)).eraseDups ∧
      table.rows = (rowsAfter old (logged [] deeds)).drop
        ((rowsAfter old (logged [] deeds)).length - count)
  /-- The cells of each row are the leaves of the object of its own line. -/
  cells : List.Forall₂ Value.Flattens
    ((lines old).filterMap object? ++ (logged [] deeds).map Value.canonicalFields)
    (rowsAfter old (logged [] deeds))

theorem load_of_content {tree : FileTree} {path : String} {place : Place}
    (h : Hosts tree path place) {old : String} (hends : EndsLine old.toList)
    (hread : ∀ l ∈ lines old, Readable l) {records : List (List (String × Value))}
    (hcontent : tree.content place = old ++ linesOf records)
    (hstorable : ∀ fields ∈ records, (Value.record fields).Storable Json.depthLimit) (count : Int) :
    Table.load tree path count = .ok ((Table.ofRows (rowsAfter old records)).tail count) := by
  have hlines := lines_append_linesOf hends records
  have hall : ∀ l ∈ lines (old ++ linesOf records), Readable l := by
    intro l hl
    rw [hlines, List.mem_append, List.mem_map] at hl
    rcases hl with hl | ⟨fields, hfields, rfl⟩
    · exact hread l hl
    · exact readable_write (hstorable fields hfields)
  rw [h.load, hcontent, ofText_of_readable hall, hlines, List.filterMap_append,
    filterMap_object?_write hstorable]
  rfl

theorem journals_keep_records {tree : FileTree} {path : String} {place : Place} {old : String}
    (h : Hosts tree path place) (hcontent : tree.content place = old)
    (hends : EndsLine old.toList) (hread : ∀ l ∈ lines old, Readable l) (deeds : List Deed)
    (hstorable : ∀ fields ∈ logged [] deeds, (Value.record fields).Storable Json.depthLimit) :
    KeepsRecords tree path place old deeds := by
  have hstart : (Desk.mk [] tree).Follows path place [] := ⟨rfl, h⟩
  obtain ⟨hfollows, htext⟩ := hstart.run deeds
  rw [hcontent] at htext
  constructor
  · exact htext
  · intro before deed after i fields j _ hgiven hj hopen
    obtain ⟨hbefore, -⟩ := hstart.run before
    have hflag := hbefore.isOpen_iff hj
    rw [Desk.run_concat, (hbefore.step deed).2, accepted, hgiven]
    simp [hflag, hopen, linesOf_cons]
  · intro fields hfields
    obtain ⟨hfeed, hreturn⟩ := write_lineFree (.record fields)
    exact ⟨_, rfl, hfeed, hreturn, Json.read_write (hstorable fields hfields)⟩
  · intro before i middle deed after _ hi hdeed
    let atClose := Desk.run path ⟨[], tree⟩ before
    have hclosed : (atClose.step path (.close i)).journals[i]? =
        some atClose.journals[i].close := by
      rw [Desk.step, List.getElem?_modify_eq, List.getElem?_eq_getElem hi]
      rfl
    have hstays : ((atClose.step path (.close i)).run path middle).journals[i]? =
        some atClose.journals[i].close := Desk.closed_run hclosed rfl middle
    have hrun (more : List Deed) : Desk.run path ⟨[], tree⟩ (before ++ .close i :: more) =
        (atClose.step path (.close i)).run path more := by
      rw [Desk.run_append]
      rfl
    rw [hrun, hrun, Desk.run_concat]
    exact Desk.step_of_closed hstays rfl hdeed
  · intro count
    exact ⟨_, load_of_content hfollows.hosts hends hread htext hstorable count,
      Table.columnsOf_eq _, Table.rows_tail _ count⟩
  · exact List.forall₂_map_right_iff.2 (List.forall₂_same.2 fun fields _ =>
      Value.flattens_flatten fields)

/-- A journal with strings of every kind, and a second one that goes on after it is closed. -/
def mixedDeeds : List Deed :=
  Deed.block 0 [.log 0 [("note", .text "two\nlines \r and \"quotes\" \\ é 😀"),
    ("half", .float ⟨0x3fe0000000000000⟩), ("none", .float ⟨0xfff8000000000001⟩)]] ++
  [.start, .log 1 [("n", .int (-7)), ("in", .record [("list", .list [.null, .bool true])])],
    .log 0 [("late", .null)], .logRun 1 "m" [] [.initial ⟨⟨0⟩, ⟨0⟩, ⟨0⟩⟩] ⟨true, ⟨0⟩⟩ .null,
    .logRun 1 "m" [] [] ⟨true, ⟨0⟩⟩ .null, .close 1, .close 1, .log 1 [("late", .null)]]

def mixedText : String :=
  "\x7b\"a\":1\x7d\nno record\r\n\n"

theorem endsLine_mixedText : EndsLine mixedText.toList :=
  .inr ⟨"\x7b\"a\":1\x7d\nno record\r\n".toList, .inl (by decide +kernel)⟩

theorem readable_mixedText : ∀ l ∈ lines mixedText, Readable l := by
  have hlines : lines mixedText =
      [Json.write (.record [("a", .int 1)]), "no record".toList] := by decide +kernel
  intro l hl
  rw [hlines, List.mem_cons, List.mem_singleton] at hl
  rcases hl with rfl | rfl
  · exact readable_write (Value.storable_of_isStorable _ _ (by decide +kernel))
  · exact .inl rfl

def canLog (deeds : List Deed) : Bool :=
  (logged [] deeds).all fun fields => Value.isStorable Json.depthLimit (.record fields)

theorem storable_of_canLog {deeds : List Deed} (h : canLog deeds = true) :
    ∀ fields ∈ logged [] deeds, (Value.record fields).Storable Json.depthLimit :=
  fun fields hfields => Value.storable_of_isStorable _ _ (List.all_eq_true.1 h fields hfields)

/-- Of the four rows the last three are asked for, and hold what was logged. -/
theorem journals_keep_records_mixedDeeds :
    KeepsRecords (shelf mixedText) "a" ["a"] mixedText mixedDeeds ∧
      ∃ table, Table.load (Desk.run "a" ⟨[], shelf mixedText⟩ mixedDeeds).tree "a" 3 = .ok table ∧
        table.rows.map (·.map (·.1)) = [["note", "half", "none"], ["n", "in.list"],
          ["mission_id", "primitives", "samples", "outcome.success", "outcome.final_distance",
            "final.t", "final.x", "final.y", "final.theta"]] ∧
        (table.rows.map fun row => ["note", "half", "in.list", "outcome.success", "final.x"].map
          fun column => (Table.cell row column).shown) = [
            ["two\nlines \r and \"quotes\" \\ é 😀", "0.5", "None", "None", "None"],
            ["None", "None", "[None, True]", "None", "None"],
            ["None", "None", "None", "True", "0.0"]] := by
  have h : KeepsRecords (shelf mixedText) "a" ["a"] mixedText mixedDeeds :=
    journals_keep_records (hosts_shelf _) (content_shelf _) endsLine_mixedText readable_mixedText
      mixedDeeds (storable_of_canLog (by decide +kernel))
  obtain ⟨table, hload, -, hrows⟩ := h.loads 3
  refine ⟨h, table, hload, ?_⟩
  rw [hrows]
  constructor <;> decide +kernel

end Journal

end PlanarDrive
