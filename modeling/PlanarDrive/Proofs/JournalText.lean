import PlanarDrive.Journal.Table
import PlanarDrive.Proofs.JsonRoundTrip

/-!
# The text of a journal

After a line end the lines of a journal and of what is added are told apart, and a record that is
written on a line is the only thing on it. When every line holds a record or no JSON at all, a
journal has one row for each line with a record.
-/

namespace PlanarDrive

namespace Text

/-- Nothing, or text up to a line end. -/
def EndsLine (text : List Char) : Prop :=
  text = [] ∨ ∃ body, text = body ++ ['\n'] ∨ text = body ++ ['\r']

theorem unifyLineEnds_append {a b : List Char} (hb : b.head? ≠ some '\n') (past : List Char) :
    unifyLineEnds past (a ++ b) = unifyLineEnds (unifyLineEnds past a).reverse b := by
  fun_induction unifyLineEnds past a with
  | case1 past rest ih => rw [← ih]; rfl
  | case2 past rest hrest ih =>
    rw [← ih, List.cons_append, unifyLineEnds]
    intro more hmore
    cases rest with
    | nil => exact hb (by rw [← List.nil_append b, hmore]; rfl)
    | cons c rest => exact hrest rest (by rw [(List.cons.inj hmore).1])
  | case3 past c rest h₁ h₂ ih =>
    rw [← ih, List.cons_append, unifyLineEnds]
    · exact fun more hc _ => h₂ hc
    · exact fun hc => h₂ hc
  | case4 past => rw [List.reverse_reverse, List.nil_append]

theorem unifyLineEnds_append_past (front past text : List Char) :
    unifyLineEnds (front ++ past) text = past.reverse ++ unifyLineEnds front text := by
  fun_induction unifyLineEnds front text with
  | case1 front rest ih => rw [← ih]; rfl
  | case2 front rest hrest ih =>
    rw [← ih, unifyLineEnds]
    · rfl
    · exact hrest
  | case3 front c rest h₁ h₂ ih =>
    rw [← ih, unifyLineEnds]
    · rfl
    · exact h₁
    · exact h₂
  | case4 front => rw [unifyLineEnds, List.reverse_append]

theorem unifyLineEnds_lineEnd {e : Char} (he : e = '\n' ∨ e = '\r') (past body : List Char) :
    ∃ front, unifyLineEnds past (body ++ [e]) = front ++ ['\n'] := by
  fun_induction unifyLineEnds past body with
  | case1 past rest ih => exact ih
  | case2 past rest hrest ih =>
    cases rest with
    | nil => rcases he with rfl | rfl <;> exact ⟨_, List.reverse_cons⟩
    | cons c rest =>
      rw [List.cons_append, unifyLineEnds]
      · exact ih
      · exact fun more hmore => hrest rest (by rw [(List.cons.inj hmore).1])
  | case3 past c rest h₁ h₂ ih =>
    rw [List.cons_append, unifyLineEnds]
    · exact ih
    · exact fun more hc _ => h₂ hc
    · exact fun hc => h₂ hc
  | case4 past => rcases he with rfl | rfl <;> exact ⟨_, List.reverse_cons⟩

/-- The text after a line end is cut into lines as if it stood alone. -/
theorem splitLines_append {a b : List Char} (ha : EndsLine a) (hb : b.head? ≠ some '\n') :
    ∃ front, splitLines a = front ++ [[]] ∧ splitLines (a ++ b) = front ++ splitLines b := by
  have hunify : unifyLineEnds [] (a ++ b) = unifyLineEnds [] a ++ unifyLineEnds [] b := by
    rw [unifyLineEnds_append hb, ← List.nil_append (unifyLineEnds [] a).reverse,
      unifyLineEnds_append_past, List.reverse_reverse]
  have hsplit {front : List Char} (rest : List Char) :
      (front ++ ['\n'] ++ rest).splitOn '\n' = front.splitOn '\n' ++ rest.splitOn '\n' := by
    rw [List.append_assoc, List.singleton_append, List.splitOn_append_cons_self]
  unfold splitLines
  rw [hunify]
  rcases ha with rfl | ⟨body, hbody⟩
  · exact ⟨[], rfl, rfl⟩
  · obtain ⟨front, hfront⟩ : ∃ front, unifyLineEnds [] a = front ++ ['\n'] := by
      rcases hbody with rfl | rfl
      · exact unifyLineEnds_lineEnd (.inl rfl) [] body
      · exact unifyLineEnds_lineEnd (.inr rfl) [] body
    refine ⟨front.splitOn '\n', ?_, by rw [hfront, hsplit]⟩
    rw [hfront, ← List.append_nil (front ++ ['\n']), hsplit]
    rfl

theorem endsLine_append {a b : List Char} (hb : EndsLine b) (hne : b ≠ []) : EndsLine (a ++ b) := by
  rcases hb with rfl | ⟨body, rfl | rfl⟩
  · exact absurd rfl hne
  · exact .inr ⟨a ++ body, .inl (List.append_assoc ..).symm⟩
  · exact .inr ⟨a ++ body, .inr (List.append_assoc ..).symm⟩

/-- Text whose first and last characters are no blanks is not stripped. -/
theorem strip_of_ends {text : List Char} {c d : Char} {body front : List Char}
    (hfirst : text = c :: body) (hlast : text = front ++ [d]) (hc : isBlank c = false)
    (hd : isBlank d = false) : strip text = text := by
  have hdrop : text.dropWhile isBlank = text := by
    rw [hfirst]
    exact List.dropWhile_cons_of_neg (by simp [hc])
  have hdrop' : text.reverse.dropWhile isBlank = text.reverse := by
    rw [hlast, List.reverse_append]
    exact List.dropWhile_cons_of_neg (by simp [hd])
  rw [strip, trim, hdrop, hdrop', List.reverse_reverse]

end Text

namespace Journal

open Text

/-- The lines of what follows a line end are those of what is added. -/
theorem lines_append {a b : String} (ha : EndsLine a.toList) (hb : b.toList.head? ≠ some '\n') :
    lines (a ++ b) = lines a ++ lines b := by
  obtain ⟨front, hfront, hsplit⟩ := splitLines_append ha hb
  unfold lines
  rw [String.toList_append, hsplit, hfront]
  simp [strip, trim]

theorem write_record (fields : List (String × Value)) : Json.write (.record fields) =
    '\x7b' :: (Json.writeFields fields ++ ['\x7d']) :=
  rfl

theorem write_record_last (fields : List (String × Value)) : Json.write (.record fields) =
    ('\x7b' :: Json.writeFields fields) ++ ['\x7d'] :=
  rfl

theorem write_lineFree (v : Value) : '\n' ∉ Json.write v ∧ '\r' ∉ Json.write v :=
  ⟨fun h => absurd (Json.printable_write v _ h) (by decide),
    fun h => absurd (Json.printable_write v _ h) (by decide)⟩

/-- A text between line ends that neither begins nor ends with a blank is one line. -/
theorem lines_text {text body front : List Char} {c d : Char} (hfeed : '\n' ∉ text)
    (hreturn : '\r' ∉ text) (hfirst : text = c :: body) (hlast : text = front ++ [d])
    (hc : isBlank c = false) (hd : isBlank d = false) :
    lines (String.ofList (text ++ ['\n'])) = [text] := by
  have hsplit : splitLines (text ++ ['\n']) = [text, []] := by
    rw [splitLines, unifyLineEnds_of_notMem (by simp [hreturn]), List.reverse_nil, List.nil_append,
      List.splitOn_append_cons_self_of_not_mem hfeed]
    rfl
  rw [lines, String.toList_ofList, hsplit, List.map_cons, strip_of_ends hfirst hlast hc hd]
  simp [hfirst, strip, trim]

theorem lines_line (fields : List (String × Value)) :
    lines (line (.record fields)) = [Json.write (.record fields)] := by
  obtain ⟨hfeed, hreturn⟩ := write_lineFree (.record fields)
  exact lines_text hfeed hreturn (write_record fields) (write_record_last fields) rfl rfl

theorem endsLine_line (record : Value) : EndsLine (line record).toList :=
  .inr ⟨Json.write record, .inl String.toList_ofList⟩

def linesOf (records : List (List (String × Value))) : String :=
  String.join (records.map fun fields => line (.record fields))

@[simp] theorem linesOf_nil : linesOf [] = "" :=
  rfl

theorem linesOf_cons (fields : List (String × Value)) (records : List (List (String × Value))) :
    linesOf (fields :: records) = line (.record fields) ++ linesOf records := by
  simp [linesOf]

theorem linesOf_append (records more : List (List (String × Value))) :
    linesOf (records ++ more) = linesOf records ++ linesOf more := by
  simp [linesOf]

theorem endsLine_append_linesOf {text : String} (h : EndsLine text.toList)
    (records : List (List (String × Value))) : EndsLine (text ++ linesOf records).toList := by
  induction records generalizing text with
  | nil => simpa using h
  | cons fields records ih =>
    rw [linesOf_cons, ← String.append_assoc]
    refine ih ?_
    rw [String.toList_append]
    exact endsLine_append (endsLine_line _) (by simp [line])

theorem lines_append_linesOf {text : String} (h : EndsLine text.toList)
    (records : List (List (String × Value))) :
    lines (text ++ linesOf records) =
      lines text ++ records.map fun fields => Json.write (.record fields) := by
  induction records generalizing text with
  | nil => simp
  | cons fields records ih =>
    have hline : (line (.record fields)).toList.head? ≠ some '\n' := by
      simp [line, write_record]
    have hends : EndsLine (text ++ line (.record fields)).toList := by
      rw [String.toList_append]
      exact endsLine_append (endsLine_line _) (by simp [line])
    rw [linesOf_cons, ← String.append_assoc, ih hends, lines_append h hline, lines_line]
    simp

def object? (line : List Char) : Option (List (String × Value)) :=
  match Json.read line with
  | .ok (.record fields) => some fields
  | _ => none

/-- A line holds a record, or it is no JSON. -/
def Readable (line : List Char) : Prop :=
  Json.read line = .error .malformedText ∨ ∃ fields, Json.read line = .ok (.record fields)

theorem readable_write {fields : List (String × Value)}
    (h : (Value.record fields).Storable Json.depthLimit) :
    Readable (Json.write (.record fields)) :=
  .inr ⟨Value.canonicalFields fields, Json.read_write h⟩

theorem object?_write {fields : List (String × Value)}
    (h : (Value.record fields).Storable Json.depthLimit) :
    object? (Json.write (.record fields)) = some (Value.canonicalFields fields) := by
  rw [object?, Json.read_write h]
  rfl

theorem filterMap_object?_write {records : List (List (String × Value))}
    (h : ∀ fields ∈ records, (Value.record fields).Storable Json.depthLimit) :
    (records.map fun fields => Json.write (.record fields)).filterMap object? =
      records.map Value.canonicalFields := by
  induction records with
  | nil => rfl
  | cons fields records ih =>
    rw [List.map_cons, List.filterMap_cons_some (object?_write (h fields List.mem_cons_self)),
      ih fun f hf => h f (List.mem_cons_of_mem _ hf), List.map_cons]

theorem value?_of_readable {l : List Char} (h : Readable l) :
    value? l = .ok ((object? l).map .record) := by
  rcases h with hbad | ⟨fields, hfields⟩
  · rw [value?, object?, hbad]
    rfl
  · rw [value?, object?, hfields]
    rfl

theorem values_of_readable {ls : List (List Char)} (h : ∀ l ∈ ls, Readable l) :
    values ls = .ok ((ls.filterMap object?).map .record) := by
  have hall : ls.mapM value? = .ok (ls.map fun l => (object? l).map .record) := by
    induction ls with
    | nil => rfl
    | cons l ls ih =>
      rw [List.mapM_cons, value?_of_readable (h l List.mem_cons_self),
        ih fun l' hl' => h l' (List.mem_cons_of_mem l hl')]
      rfl
  rw [values, hall]
  simp [Except.map, List.filterMap_map, List.map_filterMap]

/-- A fault other than that of a line that is no JSON ends the reading. -/
theorem values_of_fault {front back : List (List Char)} {l : List Char} {f : Fault Binary64}
    (hfront : ∀ l ∈ front, Readable l) (hl : Json.read l = .error f) (hf : f ≠ .malformedText) :
    values (front ++ l :: back) = .error f := by
  have hvalue : value? l = .error f := by
    rw [value?, hl]
    cases f with
    | malformedText => exact absurd rfl hf
    | _ => rfl
  have hall : (front ++ l :: back).mapM value? = .error f := by
    induction front with
    | nil =>
      rw [List.nil_append, List.mapM_cons, hvalue]
      rfl
    | cons a front ih =>
      rw [List.cons_append, List.mapM_cons, value?_of_readable (hfront a List.mem_cons_self),
        ih fun b hb => hfront b (List.mem_cons_of_mem a hb)]
      rfl
  rw [values, hall]
  rfl

def Table.ofRows (rows : List (List (String × Value))) : Table :=
  ⟨columnsOf rows, rows⟩

/-- Each line with a record is a row. -/
theorem ofText_of_readable {text : String} (h : ∀ l ∈ lines text, Readable l) (count : Int) :
    Table.ofText text count =
      .ok ((Table.ofRows (((lines text).filterMap object?).map Value.flatten)).tail count) := by
  have hrows (records : List (List (String × Value))) :
      (records.map Value.record).mapM Value.toRow = .ok (records.map Value.flatten) := by
    induction records with
    | nil => rfl
    | cons fields records ih =>
      rw [List.map_cons, List.mapM_cons, ih]
      rfl
  rw [Table.ofText, values_of_readable h]
  simp only [bind, Except.bind, List.isEmpty_iff, List.map_eq_nil_iff, Table.ofValues, hrows,
    Except.map]
  split
  · next hnone => simp [hnone, Table.ofRows, Table.columnsOf, Table.tail, Table.empty]
  · rfl

end Journal

end PlanarDrive
