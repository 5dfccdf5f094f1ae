import PlanarDrive.Proofs.AppendOnly
import PlanarDrive.Proofs.TornText

/-!
# Journals that were cut

A crash can leave any beginning of a journal. What is then in the file is loaded: every record of
which the whole text is there, and nothing of the one that was cut. But a journal that is opened
again does not end the last line. When that line lacks its end, the next record is written behind
what is left on it, and neither of the two is loaded, even if the first was whole.
-/

namespace PlanarDrive

namespace Text

theorem strip_of_first {text body : List Char} {c : Char} (hfirst : text = c :: body)
    (hc : isBlank c = false) : strip text <+: text ∧ strip text ≠ [] := by
  have hdrop : text.dropWhile isBlank = text := by
    rw [hfirst]
    exact List.dropWhile_cons_of_neg (by simp [hc])
  have hstrip : strip text = (text.reverse.dropWhile isBlank).reverse := by
    rw [strip, trim, hdrop]
  rw [hstrip]
  constructor
  · refine ⟨(text.reverse.takeWhile isBlank).reverse, ?_⟩
    rw [← List.reverse_append, List.takeWhile_append_dropWhile, List.reverse_reverse]
  · rw [Ne, List.reverse_eq_nil_iff]
    intro hnone
    have hall : text.reverse.takeWhile isBlank = text.reverse := by
      rw [← List.append_nil (text.reverse.takeWhile isBlank), ← hnone,
        List.takeWhile_append_dropWhile]
    have hblank := List.all_eq_true.1 List.all_takeWhile c (by rw [hall, hfirst]; simp)
    rw [hc] at hblank
    cases hblank

end Text

namespace Journal

open FileTree Text

/-- The records of which the text, and the line end where it counts, lies within a length. -/
def standing (ending : Nat) : List (List (String × Value)) → Nat → List (List (String × Value))
  | [], _ => []
  | fields :: rest, size =>
    let used := (Json.write (.record fields)).length
    if used + ending ≤ size then fields :: standing ending rest (size - (used + 1)) else []

def wholeRecords (records : List (List (String × Value))) (text : String) :
    List (List (String × Value)) :=
  standing 0 records text.length

/-- The records that are in the text with their line ends. -/
def endedRecords (records : List (List (String × Value))) (text : String) :
    List (List (String × Value)) :=
  standing 1 records text.length

theorem length_line (fields : List (String × Value)) :
    (line (.record fields)).length = (Json.write (.record fields)).length + 1 := by
  rw [line, String.length_ofList, List.length_append]
  rfl

theorem standing_append {ending : Nat} (hending : ending ≤ 1)
    (kept records : List (List (String × Value))) (size : Nat) :
    standing ending (kept ++ records) ((linesOf kept).length + size) =
      kept ++ standing ending records size := by
  induction kept with
  | nil => simp
  | cons fields kept ih =>
    rw [linesOf_cons, String.length_append, length_line, List.cons_append, standing]
    have hsize : (Json.write (.record fields)).length + 1 + (linesOf kept).length + size -
        ((Json.write (.record fields)).length + 1) = (linesOf kept).length + size := by omega
    rw [if_pos (by omega), hsize, ih]
    rfl

theorem standing_short (ending : Nat) (records : List (List (String × Value))) :
    standing ending records 0 = [] := by
  cases records with
  | nil => rfl
  | cons fields records => exact if_neg (by simp [write_record])

/-- A text ends with the line ends of the `kept` records, and behind them is `torn`: nothing, a part
of a record, or a record without its line end. The `whole` records can be read. -/
inductive Torn : (records kept whole : List (List (String × Value))) → List Char → Prop
  | nothing (kept lost : List (List (String × Value))) : Torn (kept ++ lost) kept kept []
  | part (kept lost : List (List (String × Value))) {fields : List (String × Value)}
    {torn : List Char} (hpart : torn <+: Json.write (.record fields)) (hne : torn ≠ [])
    (hcut : torn ≠ Json.write (.record fields)) : Torn (kept ++ fields :: lost) kept kept torn
  | object (kept lost : List (List (String × Value))) (fields : List (String × Value)) :
    Torn (kept ++ fields :: lost) kept (kept ++ [fields]) (Json.write (.record fields))

theorem torn_of_prefix {records : List (List (String × Value))} {cut : List Char}
    (h : cut <+: (linesOf records).toList) :
    ∃ kept whole torn, cut = (linesOf kept).toList ++ torn ∧ Torn records kept whole torn := by
  induction records generalizing cut with
  | nil =>
    have hnil : cut = [] := by simpa using h
    exact ⟨[], [], [], by simp [hnil], .nothing [] []⟩
  | cons fields records ih =>
    have htext (more : List (List (String × Value))) : (linesOf (fields :: more)).toList =
        Json.write (.record fields) ++ '\n' :: (linesOf more).toList := by
      rw [linesOf_cons, String.toList_append, line, String.toList_ofList, List.append_assoc]
      rfl
    rw [htext] at h
    rcases Json.prefix_append_cases h with hpart | ⟨c, rest, rfl, hrest⟩
    · by_cases hne : cut = []
      · exact ⟨[], [], [], by simp [hne], .nothing [] (fields :: records)⟩
      · by_cases hcut : cut = Json.write (.record fields)
        · exact ⟨[], [fields], cut, by simp, hcut ▸ .object [] records fields⟩
        · exact ⟨[], [], cut, by simp, .part [] records hpart hne hcut⟩
    · obtain ⟨rfl, hmore⟩ := List.cons_prefix_cons.1 hrest
      obtain ⟨kept, whole, torn, rfl, htorn⟩ := ih hmore
      refine ⟨fields :: kept, fields :: whole, torn, by simp [htext], ?_⟩
      cases htorn with
      | nothing _ lost => exact .nothing (fields :: kept) lost
      | part _ lost hpart hne hcut => exact .part (fields :: kept) lost hpart hne hcut
      | object _ lost last => exact .object (fields :: kept) lost last

section Cut

variable {records kept whole : List (List (String × Value))} {torn : List Char} {cut : String}

theorem Torn.standing (h : Torn records kept whole torn)
    (hcut : cut.toList = (linesOf kept).toList ++ torn) :
    endedRecords records cut = kept ∧ wholeRecords records cut = whole := by
  have hlength : cut.length = (linesOf kept).length + torn.length := by
    rw [← String.length_toList, hcut, List.length_append, String.length_toList]
  rw [endedRecords, wholeRecords, hlength]
  cases h with
  | nothing _ lost =>
    rw [standing_append (Nat.le_refl 1), standing_append (Nat.zero_le 1)]
    simp [standing_short]
  | part _ lost hpart hne hcut =>
    have hshort : torn.length < (Json.write (.record _)).length :=
      Nat.lt_of_le_of_ne hpart.length_le fun heq => hcut (hpart.eq_of_length heq)
    rw [standing_append (Nat.le_refl 1), standing_append (Nat.zero_le 1), Journal.standing,
      Journal.standing, if_neg (by omega), if_neg (by omega)]
    simp
  | object _ lost fields =>
    rw [standing_append (Nat.le_refl 1), standing_append (Nat.zero_le 1), Journal.standing,
      Journal.standing, if_neg (by omega), if_pos (by omega)]
    simp [standing_short]

theorem first_of_cut {fields : List (String × Value)}
    (hpart : torn <+: Json.write (.record fields)) (hne : torn ≠ []) :
    ∃ body, torn = '\x7b' :: body := by
  rcases List.prefix_cons_iff.1 hpart with rfl | ⟨body, rfl, -⟩
  · exact absurd rfl hne
  · exact ⟨body, rfl⟩

theorem lines_torn {fields : List (String × Value)}
    (hpart : torn <+: Json.write (.record fields)) (hne : torn ≠ []) :
    lines (String.ofList torn) = [strip torn] ∧ strip torn <+: torn := by
  obtain ⟨hfeed, hreturn⟩ := write_lineFree (.record fields)
  obtain ⟨body, hbody⟩ := first_of_cut hpart hne
  obtain ⟨hfront, hsome⟩ := strip_of_first hbody rfl
  refine ⟨?_, hfront⟩
  rw [lines, String.toList_ofList, splitLines,
    unifyLineEnds_of_notMem fun hmem => hreturn (hpart.subset hmem), List.reverse_nil,
    List.nil_append, List.splitOn_eq_singleton fun hmem => hfeed (hpart.subset hmem)]
  simp [hsome]

theorem Torn.of_record (h : Torn records kept whole torn) (hne : torn ≠ []) :
    ∃ fields ∈ records, torn <+: Json.write (.record fields) := by
  cases h with
  | nothing => exact absurd rfl hne
  | @part _ _ fields _ hpart => exact ⟨fields, by simp, hpart⟩
  | object _ _ fields => exact ⟨fields, by simp, List.prefix_rfl⟩

theorem Torn.head (h : Torn records kept whole torn) : torn.head? ≠ some '\n' := by
  intro hhead
  have hmem := List.mem_of_head? hhead
  obtain ⟨fields, -, hpart⟩ := h.of_record (List.ne_nil_of_mem hmem)
  exact (write_lineFree (.record fields)).1 (hpart.subset hmem)

theorem Torn.kept_subset (h : Torn records kept whole torn) :
    ∀ fields ∈ kept, fields ∈ records := by
  cases h <;> exact fun fields => List.mem_append_left _

theorem Torn.kept_le (h : Torn records kept whole torn) : kept.length ≤ whole.length := by
  cases h <;> simp

/-- The last line is read if a whole record is on it, and else it is no JSON. -/
theorem Torn.last (h : Torn records kept whole torn)
    (hstorable : ∀ fields ∈ records, (Value.record fields).Storable Json.depthLimit) :
    ∃ last, whole = kept ++ last ∧ (∀ l ∈ lines (String.ofList torn), Readable l) ∧
      (lines (String.ofList torn)).filterMap object? = last.map Value.canonicalFields := by
  cases h with
  | nothing _ lost =>
    have hline : lines (String.ofList []) = [] := by
      rw [lines, String.toList_ofList]
      rfl
    rw [hline]
    exact ⟨[], by simp, by simp, rfl⟩
  | @part _ lost fields _ hpart hne hcut =>
    -- A string that was cut behind a blank loses the blank, and what is left is a part still.
    obtain ⟨hline, hstrip⟩ := lines_torn hpart hne
    have hshort : strip torn ≠ Json.write (.record fields) := fun heq =>
      hcut (hpart.eq_of_length_le (heq ▸ hstrip.length_le))
    have hbad : Json.read (strip torn) = .error .malformedText :=
      Json.read_cut (hstorable fields (by simp)) (hstrip.trans hpart) hshort
    refine ⟨[], by simp, ?_, ?_⟩
    · rw [hline]
      exact fun l hl => .inl (List.mem_singleton.1 hl ▸ hbad)
    · simp [hline, object?, hbad]
  | object _ lost fields =>
    have hs := hstorable fields (by simp)
    have hline := (lines_torn (List.prefix_refl (Json.write (.record fields))) (by
      simp [write_record])).1
    rw [strip_of_ends (write_record fields) (write_record_last fields) rfl rfl] at hline
    refine ⟨[fields], rfl, ?_, ?_⟩
    · rw [hline]
      exact fun l hl => List.mem_singleton.1 hl ▸ readable_write hs
    · simp [hline, object?_write hs]

/-- The lines of the text that is left can be read, and they hold the whole records. -/
theorem Torn.lines_cut (h : Torn records kept whole torn)
    (hstorable : ∀ fields ∈ records, (Value.record fields).Storable Json.depthLimit)
    (hcut : cut.toList = (linesOf kept).toList ++ torn) :
    (∀ l ∈ lines cut, Readable l) ∧
      (lines cut).filterMap object? = whole.map Value.canonicalFields := by
  have hkept : ∀ fields ∈ kept, (Value.record fields).Storable Json.depthLimit :=
    fun fields hfields => hstorable fields (h.kept_subset fields hfields)
  have hlines : lines cut =
      kept.map (fun fields => Json.write (.record fields)) ++ lines (String.ofList torn) := by
    have htext : cut = "" ++ linesOf kept ++ String.ofList torn := by
      rw [← String.toList_inj]
      simp [hcut]
    rw [htext, lines_append (endsLine_append_linesOf (.inl rfl) kept) (by simpa using h.head),
      lines_append_linesOf (.inl rfl)]
    rfl
  obtain ⟨last, rfl, hread, hrows⟩ := h.last hstorable
  constructor
  · intro l hl
    rw [hlines, List.mem_append, List.mem_map] at hl
    rcases hl with ⟨fields, hfields, rfl⟩ | hl
    · exact readable_write (hkept fields hfields)
    · exact hread l hl
  · rw [hlines, List.filterMap_append, filterMap_object?_write hkept, hrows, List.map_append]

/-- A record that is written behind what is left on the last line shares that line. -/
theorem Torn.lines_joined (h : Torn records kept whole torn) (hne : torn ≠ [])
    (hcut : cut.toList = (linesOf kept).toList ++ torn) (first : List (String × Value))
    (more : List (List (String × Value))) :
    lines (cut ++ linesOf (first :: more)) =
      kept.map (fun fields => Json.write (.record fields)) ++
        (torn ++ Json.write (.record first)) ::
          more.map (fun fields => Json.write (.record fields)) := by
  obtain ⟨fields, -, hpart⟩ := h.of_record hne
  obtain ⟨hfeed, hreturn⟩ := write_lineFree (.record fields)
  obtain ⟨hfeed', hreturn'⟩ := write_lineFree (.record first)
  obtain ⟨body, rfl⟩ := first_of_cut hpart hne
  let joined := '\x7b' :: body ++ Json.write (.record first)
  have hjoined : lines (String.ofList (joined ++ ['\n'])) = [joined] :=
    lines_text (d := '\x7d')
      (by
        rw [List.mem_append, not_or]
        exact ⟨fun hmem => hfeed (hpart.subset hmem), hfeed'⟩)
      (by
        rw [List.mem_append, not_or]
        exact ⟨fun hmem => hreturn (hpart.subset hmem), hreturn'⟩)
      rfl (List.append_assoc ('\x7b' :: body) ('\x7b' :: Json.writeFields first) _).symm rfl rfl
  have htext : cut ++ linesOf (first :: more) =
      "" ++ linesOf kept ++ String.ofList (joined ++ ['\n']) ++ linesOf more := by
    rw [linesOf_cons, ← String.toList_inj]
    simp [hcut, joined, line]
  have hends : EndsLine ("" ++ linesOf kept ++ String.ofList (joined ++ ['\n'])).toList :=
    .inr ⟨("" ++ linesOf kept).toList ++ joined, .inl (by simp)⟩
  rw [htext, lines_append_linesOf hends, lines_append (endsLine_append_linesOf (.inl rfl) kept)
    (by simp [joined]), lines_append_linesOf (.inl rfl), hjoined]
  have hnone : lines "" = [] := rfl
  simp [hnone, joined]

end Cut

def Table.ofRecords (records : List (List (String × Value))) : Table :=
  Table.ofRows (records.map fun fields => Value.flatten (Value.canonicalFields fields))

section Load

variable {tree : FileTree} {path : String} {place : Place}
  {records added kept whole : List (List (String × Value))} {torn : List Char} {cut : String}

theorem load_spared (h : Hosts tree path place) (htorn : Torn records kept whole torn)
    (hcut : cut.toList = (linesOf kept).toList ++ torn)
    (hcontent : tree.content place = cut ++ linesOf added)
    (hrecords : ∀ fields ∈ records, (Value.record fields).Storable Json.depthLimit)
    (hadded : ∀ fields ∈ added, (Value.record fields).Storable Json.depthLimit)
    (hspared : EndsLine cut.toList ∨ added = []) (count : Int) :
    Table.load tree path count = .ok ((Table.ofRecords (whole ++ added)).tail count) := by
  obtain ⟨hread, hrows⟩ := htorn.lines_cut hrecords hcut
  have htable : Table.ofRows (rowsAfter cut added) = Table.ofRecords (whole ++ added) := by
    rw [rowsAfter, hrows, ← List.map_append, List.map_map]
    rfl
  rw [← htable]
  rcases hspared with hends | rfl
  · exact load_of_content h hends hread hcontent hadded count
  · rw [linesOf_nil, String.append_empty] at hcontent
    rw [h.load, hcontent, ofText_of_readable hread, rowsAfter, List.map_nil, List.append_nil]

/-- The line that a record shares with what is left of another one holds no record. -/
theorem load_joined (h : Hosts tree path place) (htorn : Torn records kept whole torn)
    (hne : torn ≠ []) (hcut : cut.toList = (linesOf kept).toList ++ torn)
    {first : List (String × Value)} {more : List (List (String × Value))}
    (hcontent : tree.content place = cut ++ linesOf (first :: more))
    (hrecords : ∀ fields ∈ records, (Value.record fields).Storable Json.depthLimit)
    (hmore : ∀ fields ∈ more, (Value.record fields).Storable Json.depthLimit) :
    ∃ fault, Json.read (torn ++ Json.write (.record first)) = .error fault ∧
      (fault ≠ .malformedText → ∀ count, Table.load tree path count = .error fault) ∧
      (fault = .malformedText → ∀ count,
        Table.load tree path count = .ok ((Table.ofRecords (kept ++ more)).tail count)) := by
  obtain ⟨fields, hfields, hpart⟩ := htorn.of_record hne
  obtain ⟨fault, hfault⟩ :
      ∃ fault, Json.read (torn ++ Json.write (.record first)) = .error fault := by
    cases hread : Json.read (torn ++ Json.write (.record first)) with
    | error fault => exact ⟨fault, rfl⟩
    | ok v => exact absurd hread (Json.read_glued_ne_ok (hrecords fields hfields) hpart hne first v)
  have hkept : ∀ fields ∈ kept, (Value.record fields).Storable Json.depthLimit :=
    fun fields hfields => hrecords fields (htorn.kept_subset fields hfields)
  have hlines := htorn.lines_joined hne hcut first more
  have hreadable {some : List (List (String × Value))}
      (hsome : ∀ fields ∈ some, (Value.record fields).Storable Json.depthLimit) :
      ∀ l ∈ some.map (fun fields => Json.write (.record fields)), Readable l := by
    intro l hl
    obtain ⟨fields, hfields, rfl⟩ := List.mem_map.1 hl
    exact readable_write (hsome fields hfields)
  refine ⟨fault, hfault, fun hother count => ?_, ?_⟩
  · rw [h.load, hcontent, Table.ofText, hlines, values_of_fault (hreadable hkept) hfault hother]
    rfl
  · rintro rfl count
    have hall : ∀ l ∈ lines (cut ++ linesOf (first :: more)), Readable l := by
      intro l hl
      rw [hlines, List.mem_append, List.mem_cons] at hl
      rcases hl with hl | rfl | hl
      · exact hreadable hkept l hl
      · exact .inl hfault
      · exact hreadable hmore l hl
    have hnone : object? (torn ++ Json.write (.record first)) = none := by
      rw [object?, hfault]
    rw [h.load, hcontent, ofText_of_readable hall, hlines, List.filterMap_append,
      List.filterMap_cons_none hnone, filterMap_object?_write hkept, filterMap_object?_write hmore,
      ← List.map_append, List.map_map]
    rfl

end Load

/-- What is loaded of a journal that held some records, was cut to a text, and had others added. -/
structure OutlivesCut (records : List (List (String × Value))) (cut : String)
    (added : List (List (String × Value))) (load : Int → Except (Fault Binary64) Table) : Prop where
  /-- Behind a line end, or when nothing is added, every whole record and every added one is
  loaded. -/
  spared : EndsLine cut.toList ∨ added = [] → ∀ count,
    load count = .ok ((Table.ofRecords (wholeRecords records cut ++ added)).tail count)
  /-- Else the record on the last line and the first added one are lost together, or nothing is
  loaded at all. -/
  joined : ∀ first more, ¬EndsLine cut.toList → added = first :: more →
    (∃ fault, ∀ count, load count = .error fault) ∨ ∀ count,
      load count = .ok ((Table.ofRecords (endedRecords records cut ++ more)).tail count)
  /-- So there are always rows missing then. -/
  fewer : ¬EndsLine cut.toList → added ≠ [] → ∀ count table, load count = .ok table →
    table.rows.length < (wholeRecords records cut ++ added).length

theorem cut_journals_lose_joined_records {old tree : FileTree} {path : String} {place : Place}
    (hold : Hosts old path place) (hempty : old.content place = "") (before : List Deed)
    (h : Hosts tree path place) (hcut : (tree.content place).toList <+:
      ((Desk.run path ⟨[], old⟩ before).tree.content place).toList) (later : List Deed)
    (hbefore : ∀ fields ∈ logged [] before, (Value.record fields).Storable Json.depthLimit)
    (hlater : ∀ fields ∈ logged [] later, (Value.record fields).Storable Json.depthLimit) :
    OutlivesCut (logged [] before) (tree.content place) (logged [] later)
      (Table.load (Desk.run path ⟨[], tree⟩ later).tree path) := by
  have hfirst : (Desk.mk [] old).Follows path place [] := ⟨rfl, hold⟩
  have hsecond : (Desk.mk [] tree).Follows path place [] := ⟨rfl, h⟩
  obtain ⟨-, htext⟩ := hfirst.run before
  obtain ⟨hfollows, hcontent⟩ := hsecond.run later
  rw [htext, hempty, String.empty_append] at hcut
  obtain ⟨kept, whole, torn, hleft, htorn⟩ := torn_of_prefix hcut
  obtain ⟨hended, hwhole⟩ := htorn.standing hleft
  have hjoined (first : List (String × Value)) (more : List (List (String × Value)))
      (hends : ¬EndsLine (tree.content place).toList) (hadded : logged [] later = first :: more) :
      (∃ fault, ∀ count, Table.load (Desk.run path ⟨[], tree⟩ later).tree path count =
        .error fault) ∨ ∀ count, Table.load (Desk.run path ⟨[], tree⟩ later).tree path count =
          .ok ((Table.ofRecords (kept ++ more)).tail count) := by
    -- With nothing torn off, the text would end with the line end of the last kept record.
    have hne : torn ≠ [] := by
      rintro rfl
      have hkept : EndsLine ("" ++ linesOf kept).toList := endsLine_append_linesOf (.inl rfl) kept
      rw [String.empty_append, ← List.append_nil (linesOf kept).toList, ← hleft] at hkept
      exact hends hkept
    rw [hadded] at hcontent hlater
    obtain ⟨fault, -, hother, hlost⟩ := load_joined hfollows.hosts htorn hne hleft hcontent hbefore
      fun fields hfields => hlater fields (List.mem_cons_of_mem first hfields)
    by_cases hfault : fault = .malformedText
    · exact .inr (hlost hfault)
    · exact .inl ⟨fault, hother hfault⟩
  constructor
  · intro hspared count
    rw [hwhole]
    exact load_spared hfollows.hosts htorn hleft hcontent hbefore hlater hspared count
  · rw [hended]
    exact hjoined
  · intro hends hadded count table hload
    obtain ⟨first, more, hadded⟩ := List.exists_cons_of_ne_nil hadded
    rcases hjoined first more hends hadded with ⟨fault, hfault⟩ | hrows
    · rw [hfault] at hload
      cases hload
    · rw [hrows] at hload
      cases hload
      have hkept : kept.length ≤ whole.length := htorn.kept_le
      rw [hwhole, hadded]
      simp [Table.tail, Table.ofRecords, Table.ofRows]
      omega

/-- Two records, and a third one that is added when the text of the others has been cut. -/
def notes : List Deed :=
  Deed.block 0 [.log 0 [("a", .int 1)], .log 0 [("b", .int 2)]]

def lateNotes : List Deed :=
  Deed.block 0 [.log 0 [("c", .int 3)]]

theorem text_notes : (Desk.run "a" ⟨[], shelf ""⟩ notes).tree.content ["a"] =
    linesOf [[("a", .int 1)], [("b", .int 2)]] := by
  have hstart : (Desk.mk [] (shelf "")).Follows "a" ["a"] [] := ⟨rfl, hosts_shelf ""⟩
  rw [(hstart.run notes).2, content_shelf, String.empty_append]
  rfl

theorem cut_journals_lose_joined_records_notes :
    OutlivesCut (logged [] notes) "\x7b\"a\":1\x7d\n\x7b\"b\":" (logged [] lateNotes)
      (Table.load (Desk.run "a" ⟨[], shelf "\x7b\"a\":1\x7d\n\x7b\"b\":"⟩ lateNotes).tree
        "a") := by
  refine cut_journals_lose_joined_records (hosts_shelf "") (content_shelf "") notes
    (hosts_shelf "\x7b\"a\":1\x7d\n\x7b\"b\":") ?_ lateNotes
    (storable_of_canLog (by decide +kernel)) (storable_of_canLog (by decide +kernel))
  rw [text_notes, content_shelf]
  decide +kernel

/-- When only the last line end was cut, the record before it is lost with the one behind it. -/
theorem open_note_is_lost :
    ("\x7b\"a\":1\x7d\n\x7b\"b\":2\x7d".toList <+:
      ((Desk.run "a" ⟨[], shelf ""⟩ notes).tree.content ["a"]).toList) ∧
    wholeRecords (logged [] notes) "\x7b\"a\":1\x7d\n\x7b\"b\":2\x7d" ++ logged [] lateNotes =
      [[("a", .int 1)], [("b", .int 2)], [("c", .int 3)]] ∧
    Table.load (Desk.run "a" ⟨[], shelf "\x7b\"a\":1\x7d\n\x7b\"b\":2\x7d"⟩ lateNotes).tree "a"
      Table.standardRows = .ok ⟨["a"], [[("a", .int 1)]]⟩ := by
  have hstart : (Desk.mk [] (shelf "\x7b\"a\":1\x7d\n\x7b\"b\":2\x7d")).Follows "a" ["a"] [] :=
    ⟨rfl, hosts_shelf _⟩
  obtain ⟨hfollows, htext⟩ := hstart.run lateNotes
  refine ⟨?_, ?_, ?_⟩
  · rw [text_notes]
    decide +kernel
  · rfl
  · rw [hfollows.hosts.load, htext, content_shelf]
    cbv

end Journal

end PlanarDrive
