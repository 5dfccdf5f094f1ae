import PlanarDrive.Proofs.FirstAppearance
import PlanarDrive.Proofs.JournalText

/-!
# Flattened records

A nested field is entered under its dotted name, so it can only touch columns whose names begin with
the name of the record it stands in. A cell of a row is therefore decided by the one field it comes
from, whatever else the record holds. The cells of a row are the leaves of its record: what a path
of names leads to, in the column that these names make.
-/

namespace PlanarDrive

namespace Value

theorem lookup_cons_eq (name other : String) (v : Value) (row : List (String × Value)) :
    ((name, v) :: row).lookup other = if other = name then some v else row.lookup other := by
  by_cases h : other = name
  · simp [h]
  · rw [List.lookup_cons, beq_false_of_ne h, if_neg h]

theorem lookup_insertField (name other : String) (v : Value) (row : List (String × Value)) :
    (insertField name v row).lookup other =
      if other = name then some v else row.lookup other := by
  induction row with
  | nil => rw [insertField, lookup_cons_eq]
  | cons f rest ih =>
    obtain ⟨n, w⟩ := f
    by_cases hn : n = name
    · subst hn
      rw [insertField, if_pos rfl, lookup_cons_eq, lookup_cons_eq]
      split <;> rfl
    · rw [insertField, if_neg hn, lookup_cons_eq, lookup_cons_eq, ih]
      by_cases h : other = n
      · simp [h, hn]
      · simp [h]

theorem lookup_eq_none {name : String} {row : List (String × Value)}
    (h : name ∉ row.map Prod.fst) : row.lookup name = none :=
  List.lookup_eq_none_iff.2 fun f hf =>
    bne_iff_ne.2 fun heq => h (List.mem_map.2 ⟨f, hf, heq.symm⟩)

theorem names_insertField (name : String) (v : Value) (row : List (String × Value)) :
    (insertField name v row).map Prod.fst =
      if name ∈ row.map Prod.fst then row.map Prod.fst else row.map Prod.fst ++ [name] := by
  induction row with
  | nil => rfl
  | cons f rest ih =>
    obtain ⟨n, w⟩ := f
    by_cases hn : n = name
    · simp [insertField, hn]
    · have hne : name ≠ n := fun h => hn h.symm
      rw [insertField, if_neg hn, List.map_cons, ih]
      by_cases hmem : name ∈ rest.map Prod.fst <;> simp_all

def Columns (row : List (String × Value)) : Prop :=
  (row.map Prod.fst).Nodup

theorem Columns.insertField {row : List (String × Value)} (h : Columns row) (name : String)
    (v : Value) : Columns (insertField name v row) := by
  rw [Columns, names_insertField]
  split
  · exact h
  · next hnew =>
    refine List.nodup_append.2 ⟨h, by simp, fun a ha b hb heq => hnew ?_⟩
    rw [← List.mem_singleton.1 hb, ← heq]
    exact ha

/-- Of fields that are put in one after the other each is found, and the old ones else. -/
theorem lookup_foldl_insertField {fields : List (String × Value)} (h : Columns fields)
    (row : List (String × Value)) (name : String) :
    (fields.foldl (fun r f => Value.insertField f.1 f.2 r) row).lookup name =
      (fields.lookup name).or (row.lookup name) := by
  induction fields generalizing row with
  | nil => rfl
  | cons f rest ih =>
    obtain ⟨n, v⟩ := f
    rw [Columns, List.map_cons, List.nodup_cons] at h
    rw [List.foldl_cons, ih h.2, lookup_insertField, lookup_cons_eq]
    by_cases hn : name = n
    · subst hn
      rw [lookup_eq_none h.1]
      simp
    · simp [hn]

/-- A name stands below another one, after its dot. -/
def Below (outer name : String) : Prop :=
  outer.toList ++ ['.'] <+: name.toList

instance (outer name : String) : Decidable (Below outer name) :=
  inferInstanceAs (Decidable (_ <+: _))

theorem toList_dotted {outer : String} (h : outer ≠ "") (name : String) :
    (dotted outer name).toList = outer.toList ++ '.' :: name.toList := by
  have hempty : outer.isEmpty = false := by simpa using h
  simp [dotted, hempty]

theorem dotted_ne_empty {outer : String} (h : outer ≠ "") (name : String) :
    dotted outer name ≠ "" := by
  intro heq
  have hlist := congrArg String.toList heq
  rw [toList_dotted h] at hlist
  simp at hlist

theorem below_dotted {outer : String} (h : outer ≠ "") (name : String) :
    Below outer (dotted outer name) := by
  rw [Below, toList_dotted h]
  exact ⟨name.toList, by simp⟩

theorem Below.of_dotted {outer inner name : String} (h : outer ≠ "")
    (hbelow : Below (dotted outer inner) name) : Below outer name := by
  rw [Below, toList_dotted h] at hbelow
  refine List.IsPrefix.trans ?_ hbelow
  exact ⟨inner.toList ++ ['.'], by simp⟩

mutual

theorem Columns.enter {row : List (String × Value)} (h : Columns row) (name : String) :
    ∀ v, Columns (enter name row v)
  | .record fields => by
    rw [Value.enter]
    exact h.enterAll name fields
  | .null | .bool _ | .int _ | .float _ | .text _ | .list _ => by
    rw [Value.enter]
    · exact h.insertField name _
    · simp

theorem Columns.enterAll {row : List (String × Value)} (h : Columns row) (outer : String) :
    ∀ fields, Columns (enterAll outer row fields)
  | [] => h
  | (n, v) :: rest => by
    rw [Value.enterAll]
    exact (h.enter (dotted outer n) v).enterAll outer rest

end

mutual

/-- What is entered under a name changes that column and those below it. -/
theorem lookup_enter {name other : String} (hname : name ≠ "") (hne : other ≠ name)
    (hbelow : ¬Below name other) (row : List (String × Value)) :
    ∀ v, (enter name row v).lookup other = row.lookup other
  | .record fields => by
    rw [enter]
    exact lookup_enterAll hname hbelow row fields
  | .null | .bool _ | .int _ | .float _ | .text _ | .list _ => by
    rw [enter, lookup_insertField, if_neg hne]
    simp

theorem lookup_enterAll {outer other : String} (houter : outer ≠ "") (hbelow : ¬Below outer other)
    (row : List (String × Value)) :
    ∀ fields, (enterAll outer row fields).lookup other = row.lookup other
  | [] => rfl
  | (n, v) :: rest => by
    have hne : other ≠ dotted outer n := fun h => hbelow (h ▸ below_dotted houter n)
    rw [enterAll, lookup_enterAll houter hbelow _ rest]
    exact lookup_enter (dotted_ne_empty houter n) hne (fun h => hbelow (h.of_dotted houter)) row v

end

/-- A cell of a flattened record comes from a nested field, or else from a plain one. -/
theorem lookup_flatten (fields : List (String × Value)) (name : String) :
    (flatten fields).lookup name =
      ((enterAll "" [] (fields.filter fun f => f.2.isRecord)).lookup name).or
        ((fields.filter fun f => !f.2.isRecord).lookup name) :=
  lookup_foldl_insertField (Columns.enterAll (by simp [Columns]) "" _) _ name

/-- A path of names leads through nested records to a value that is no record. -/
inductive Leads : List (String × Value) → List String → Value → Prop
  | leaf {fields : List (String × Value)} {name : String} {v : Value} (h : (name, v) ∈ fields)
      (hleaf : v.isRecord = false) : Leads fields [name] v
  | nested {fields inner : List (String × Value)} {name : String} {path : List String} {v : Value}
      (h : (name, .record inner) ∈ fields) (hinner : Leads inner path v) :
      Leads fields (name :: path) v

/-- The column of a path: its names with dots between them, from the first one on that is not
empty. -/
def column (path : List String) : String :=
  ".".intercalate (path.dropWhile (·.isEmpty))

theorem foldl_dotted_of_ne {outer : String} (h : outer ≠ "") (path : List String) :
    path.foldl dotted outer = ".".intercalate (outer :: path) := by
  induction path generalizing outer with
  | nil => simp
  | cons name rest ih =>
    have hempty : outer.isEmpty = false := by simpa using h
    rw [List.foldl_cons, ih (dotted_ne_empty h name), dotted, hempty]
    cases rest with
    | nil => simp [String.intercalate_cons_cons]
    | cons next rest => simp [String.intercalate_cons_cons, String.append_assoc]

theorem foldl_dotted (path : List String) : path.foldl dotted "" = column path := by
  induction path with
  | nil => rfl
  | cons name rest ih =>
    have hdotted : dotted "" name = name := rfl
    rw [List.foldl_cons, hdotted]
    by_cases h : name = ""
    · subst h
      exact ih
    · rw [foldl_dotted_of_ne h, column, List.dropWhile_cons_of_neg (by simpa using h)]

theorem Leads.mono {fields more : List (String × Value)} (hsub : fields ⊆ more)
    {path : List String} {v : Value} (h : Leads fields path v) : Leads more path v := by
  cases h with
  | leaf h hleaf => exact .leaf (hsub h) hleaf
  | nested h hinner => exact .nested (hsub h) hinner

mutual

/-- A cell that is entered was there before or is where a path leads. -/
theorem leads_of_lookup_enter {name other : String} {w : Value} {row : List (String × Value)} :
    ∀ v, (enter name row v).lookup other = some w → row.lookup other = some w ∨
      (v.isRecord = false ∧ other = name ∧ w = v) ∨
      ∃ fields path, v = record fields ∧ Leads fields path w ∧ path.foldl dotted name = other
  | .record fields, h => by
    rw [enter] at h
    rcases leads_of_lookup_enterAll fields h with hrow | ⟨path, hpath, hname⟩
    · exact .inl hrow
    · exact .inr (.inr ⟨fields, path, rfl, hpath, hname⟩)
  | .null, h | .bool _, h | .int _, h | .float _, h | .text _, h | .list _, h => by
    rw [enter, lookup_insertField] at h
    · split at h
      · next hname => exact .inr (.inl ⟨rfl, hname, (Option.some.inj h).symm⟩)
      · exact .inl h
    · simp

theorem leads_of_lookup_enterAll {outer other : String} {w : Value}
    {row : List (String × Value)} :
    ∀ fields, (enterAll outer row fields).lookup other = some w → row.lookup other = some w ∨
      ∃ path, Leads fields path w ∧ path.foldl dotted outer = other
  | [], h => .inl h
  | (n, v) :: rest, h => by
    rw [enterAll] at h
    rcases leads_of_lookup_enterAll rest h with hfirst | ⟨path, hpath, hname⟩
    · rcases leads_of_lookup_enter v hfirst with hrow | ⟨hleaf, hname, rfl⟩ |
        ⟨fields, path, rfl, hpath, hname⟩
      · exact .inl hrow
      · exact .inr ⟨[n], .leaf List.mem_cons_self hleaf, hname.symm⟩
      · exact .inr ⟨n :: path, .nested List.mem_cons_self hpath, hname⟩
    · exact .inr ⟨path, hpath.mono (List.subset_cons_self _ _), hname⟩

end

mutual

theorem isSome_lookup_enter {name other : String} {row : List (String × Value)}
    (h : (row.lookup other).isSome) : ∀ v, ((enter name row v).lookup other).isSome
  | .record fields => by
    rw [enter]
    exact isSome_lookup_enterAll h fields
  | .null | .bool _ | .int _ | .float _ | .text _ | .list _ => by
    rw [enter, lookup_insertField]
    · split
      · rfl
      · exact h
    · simp

theorem isSome_lookup_enterAll {outer other : String} {row : List (String × Value)}
    (h : (row.lookup other).isSome) :
    ∀ fields, ((enterAll outer row fields).lookup other).isSome
  | [] => h
  | (n, v) :: rest => by
    rw [enterAll]
    exact isSome_lookup_enterAll (isSome_lookup_enter h v) rest

end

theorem enter_of_leaf {v : Value} (h : v.isRecord = false) (name : String)
    (row : List (String × Value)) : enter name row v = insertField name v row := by
  cases v with
  | record fields => cases h
  | _ => simp [enter]

theorem isSome_lookup_enterAll_of_mem {fields : List (String × Value)} {name other : String}
    {v : Value} (h : (name, v) ∈ fields) {outer : String}
    (hsome : ∀ row, ((enter (dotted outer name) row v).lookup other).isSome)
    (row : List (String × Value)) : ((enterAll outer row fields).lookup other).isSome := by
  induction fields generalizing row with
  | nil => cases h
  | cons f rest ih =>
    obtain ⟨n, u⟩ := f
    rw [enterAll]
    rcases List.mem_cons.1 h with heq | h
    · cases heq
      exact isSome_lookup_enterAll (hsome row) rest
    · exact ih h _

/-- Where a path leads there is a cell. -/
theorem isSome_lookup_of_leads {fields : List (String × Value)} {path : List String} {v : Value}
    (h : Leads fields path v) (outer : String) (row : List (String × Value)) :
    ((enterAll outer row fields).lookup (path.foldl dotted outer)).isSome := by
  induction h generalizing outer row with
  | @leaf fields name v hmem hleaf =>
    refine isSome_lookup_enterAll_of_mem hmem (fun row => ?_) row
    rw [enter_of_leaf hleaf, List.foldl_cons, List.foldl_nil, lookup_insertField_self]
    rfl
  | @nested fields inner name path v hmem hinner ih =>
    refine isSome_lookup_enterAll_of_mem hmem (fun row => ?_) row
    rw [enter]
    exact ih (dotted outer name) row

theorem column_singleton (name : String) : column [name] = name := by
  by_cases hempty : name = "" <;> simp [column, hempty]

theorem Leads.ne_nil {fields : List (String × Value)} {path : List String} {v : Value}
    (h : Leads fields path v) : path ≠ [] := by
  cases h <;> simp

/-- Only nested records have paths of more than one name, and they have no others. -/
theorem leads_filter_isRecord_iff {fields : List (String × Value)} {path : List String}
    {v : Value} :
    Leads (fields.filter fun f => f.2.isRecord) path v ↔ Leads fields path v ∧ 1 < path.length := by
  constructor
  · intro h
    refine ⟨h.mono (List.filter_subset_self _), ?_⟩
    cases h with
    | leaf hmem hleaf => simp [hleaf] at hmem
    | nested hmem hinner => simpa using List.length_pos_iff.2 hinner.ne_nil
  · rintro ⟨h, hlength⟩
    cases h with
    | leaf hmem hleaf => simp at hlength
    | nested hmem hinner => exact .nested (List.mem_filter.2 ⟨hmem, rfl⟩) hinner

/-- A row holds the leaves of a record, lists among them, each in the column that its path names:
every cell is a leaf of its column, a nested one if there is one, and every leaf has its column. -/
structure Flattens (fields row : List (String × Value)) : Prop where
  sound : ∀ name v, row.lookup name = some v → ∃ path, Leads fields path v ∧ column path = name ∧
    ∀ other w, Leads fields other w → column other = name → 1 < other.length → 1 < path.length
  complete : ∀ path v, Leads fields path v → (row.lookup (column path)).isSome

theorem flattens_flatten (fields : List (String × Value)) : Flattens fields (flatten fields) := by
  have hnested {path : List String} {v : Value} (h : Leads fields path v)
      (hlength : 1 < path.length) :
      ((enterAll "" [] (fields.filter fun f => f.2.isRecord)).lookup (column path)).isSome :=
    foldl_dotted path ▸ isSome_lookup_of_leads (leads_filter_isRecord_iff.2 ⟨h, hlength⟩) "" []
  constructor
  · intro name v h
    rw [lookup_flatten, Option.or_eq_some_iff] at h
    rcases h with h | ⟨hnone, h⟩
    · rcases leads_of_lookup_enterAll _ h with hrow | ⟨path, hpath, hname⟩
      · cases hrow
      · obtain ⟨hpath, hlength⟩ := leads_filter_isRecord_iff.1 hpath
        exact ⟨path, hpath, (foldl_dotted path).symm.trans hname, fun _ _ _ _ _ => hlength⟩
    · obtain ⟨before, after, hsplit, -⟩ := List.lookup_eq_some_iff.1 h
      have hmem : (name, v) ∈ fields.filter fun f => !f.2.isRecord := by simp [hsplit]
      obtain ⟨hmem, hleaf⟩ := List.mem_filter.1 hmem
      refine ⟨[name], .leaf hmem (by simpa using hleaf), column_singleton name,
        fun other w hother hname hlength => ?_⟩
      rw [← hname] at hnone
      simpa [hnone] using hnested hother hlength
  · intro path v h
    rw [lookup_flatten, Option.isSome_or, Bool.or_eq_true]
    by_cases hlength : 1 < path.length
    · exact .inl (hnested h hlength)
    · cases h with
      | @leaf _ name _ hmem hleaf =>
        have hplain : (name, v) ∈ fields.filter fun f => !f.2.isRecord :=
          List.mem_filter.2 ⟨hmem, by simpa using hleaf⟩
        rw [column_singleton]
        exact .inr (List.lookup_isSome_iff.2 ⟨(name, v), hplain, beq_self_eq_true name⟩)
      | nested hmem hinner =>
        exact absurd (by simpa using List.length_pos_iff.2 hinner.ne_nil) hlength

end Value

namespace Journal.Table

/-- The columns are the names of all cells in the order of their first appearance. -/
theorem columnsOf_eq (rows : List (List (String × Value))) :
    columnsOf rows = (rows.flatMap (·.map Prod.fst)).eraseDups := by
  let list (names : List String) (name : String) : List String :=
    if names.contains name then names else names ++ [name]
  have hrow (names : List String) (row : List (String × Value)) :
      row.foldl (fun names f => if names.contains f.1 then names else names ++ [f.1]) names =
        (row.map Prod.fst).foldl list names := by
    rw [List.foldl_map]
  have hrows (names : List String) : rows.foldl (fun names row => (row.map Prod.fst).foldl list
      names) names = (rows.flatMap (·.map Prod.fst)).foldl list names := by
    induction rows generalizing names with
    | nil => rfl
    | cons row rest ih => rw [List.foldl_cons, List.flatMap_cons, List.foldl_append, ih]
  simp only [columnsOf, hrow]
  rw [hrows]
  exact foldl_listed _ []

/-- Every name in a row is the name of a column. -/
theorem mem_columnsOf {rows : List (List (String × Value))} {row : List (String × Value)}
    (hrow : row ∈ rows) {name : String} (hname : name ∈ row.map Prod.fst) :
    name ∈ columnsOf rows := by
  rw [columnsOf_eq, List.mem_eraseDups]
  exact List.mem_flatMap.2 ⟨row, hrow, hname⟩

theorem row_neg_one {t : Table} {front : List (List (String × Value))}
    {last : List (String × Value)} (h : t.rows = front ++ [last]) : t.row (-1) = .ok last := by
  have hindex : (-1 + (t.rows.length : Int)) = front.length := by
    rw [h, List.length_append, List.length_singleton]
    omega
  have hget : t.rows[front.length]? = some last := by
    rw [h]
    exact List.getElem?_concat_length
  have hneg : ¬(front.length : Int) < 0 := by omega
  simp only [row, Int.reduceNeg, Int.reduceLT, if_true, hindex, hneg, if_false, Int.toNat_natCast,
    hget, Option.elim]

/-- The last of several rows is kept by any cut to one row or more. -/
theorem row_last {front : List (List (String × Value))} {last : List (String × Value)}
    {count : Int} (hcount : 1 ≤ count) :
    ((ofRows (front ++ [last])).tail count).row (-1) = .ok last := by
  have hneg : ¬count < 0 := by omega
  have hrows : ((ofRows (front ++ [last])).tail count).rows =
      front.drop (front.length + 1 - count.toNat) ++ [last] := by
    simp only [tail, ofRows, hneg, if_false, List.length_append, List.length_singleton]
    exact List.drop_append_of_le_length (by omega)
  exact row_neg_one hrows

end Journal.Table

end PlanarDrive
