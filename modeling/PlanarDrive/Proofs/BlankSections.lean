import PlanarDrive.Mission.Catalog
import PlanarDrive.Proofs.SettingKeys

/-!
# Sections that are left blank

A section of the settings may be left out, be null or be a record without fields. For the sections
that the settings are read from this is all the same, and so it is for every run. The section that
names the mission is looked up in another way: where it is null, and the mission is not named
otherwise, a run fails that would have gone on with a standard mission.
-/

namespace PlanarDrive

namespace Document

/-- Two records that hold the same under all names but one. -/
structure SameBut (name : String) (d d' : Document) : Prop where
  isRecord : d.IsRecord d.root
  isRecord' : d'.IsRecord d'.root
  others : ∃ R, d.Matching d' R ∧ ∀ other, other ≠ name →
    Option.Rel (Datum.Matched R) (d.member? d.root other) (d'.member? d'.root other)

/-- A section that is left out, null or a record without fields. -/
inductive Blank (d : Document) (name : String) : Prop
  | absent (h : d.member? d.root name = none)
  | null (h : d.member? d.root name = some (.plain .null))
  | empty {part : Datum} (h : d.member? d.root name = some part) (hrecord : d.IsRecord part)
    (hempty : d.isNothing part = true)

def FieldsAlike (d d' : Document) (R : Nat → Nat → Prop) (part part' : Datum) : Prop :=
  ∀ name, EndAlike (Option.Rel (Datum.Matched R)) (d.field? part name) (d'.field? part' name)

theorem fieldsAlike_emptyRecord (d d' : Document) (R : Nat → Nat → Prop) :
    d.FieldsAlike d' R (.plain (.record [])) (.plain (.record [])) :=
  fun _ => .ok .none

variable {d d' : Document} {R : Nat → Nat → Prop} {name : String}

theorem SameBut.field? (h : SameBut name d d') : ∃ R, d.Matching d' R ∧ ∀ other, other ≠ name →
    EndAlike (Option.Rel (Datum.Matched R)) (d.field? d.root other) (d'.field? d'.root other) := by
  obtain ⟨R, hR, hothers⟩ := h.others
  refine ⟨R, hR, fun other hother => ?_⟩
  rw [h.isRecord.field?_eq, h.isRecord'.field?_eq]
  exact .ok (hothers other hother)

end Document

namespace Settings

variable {d d' : Document} {R : Nat → Nat → Prop}

theorem section?_of_blank {name : String} (hroot : d.IsRecord d.root)
    (h : d.Blank name) : section? d name = .ok (.plain (.record [])) := by
  unfold section?
  rw [hroot.field?_eq]
  cases h with
  | absent h =>
    rw [h]
    rfl
  | null h =>
    rw [h]
    rfl
  | empty h hrecord hempty =>
    rw [h]
    dsimp only [Except.map]
    rw [if_pos hempty]

theorem section?_alike {name : String} (hR : d.Matching d' R)
    (h : EndAlike (Option.Rel (Datum.Matched R)) (d.field? d.root name) (d'.field? d'.root name)) :
    EndAlike (d.FieldsAlike d' R) (section? d name) (section? d' name) := by
  unfold section?
  generalize d.field? d.root name = r, d'.field? d'.root name = r' at h
  cases h with
  | error f => exact .error f
  | ok h =>
    cases h with
    | none => exact .ok (d.fieldsAlike_emptyRecord d' R)
    | some hpart =>
      dsimp only [Except.map]
      rw [hR.isNothing_eq hpart]
      split
      · exact .ok (d.fieldsAlike_emptyRecord d' R)
      · exact .ok (hR.field? hpart)

section Fields

variable {part part' : Datum} (h : d.FieldsAlike d' R part part') (name : String)
include h

theorem floatField_eq (absent : Binary64) :
    floatField d' part' name absent = floatField d part name absent :=
  (h name).bind_eq fun _ _ hvalue => by
    cases hvalue with
    | none => rfl
    | some hvalue => exact hvalue.toFloat_eq

theorem intField_eq (absent : Int) :
    intField d' part' name absent = intField d part name absent :=
  (h name).bind_eq fun _ _ hvalue => by
    cases hvalue with
    | none => rfl
    | some hvalue => exact hvalue.toInt_eq

theorem textField_eq (hR : d.Matching d' R) (absent : String) :
    textField d' part' name absent = textField d part name absent :=
  (h name).bind_eq fun _ _ hvalue => by
    cases hvalue with
    | none => rfl
    | some hvalue => exact hR.shown_eq hvalue

end Fields

/-- Documents whose sections have alike fields give the same settings, or the same fault. -/
theorem ofDocument_eq_of_sections (hR : d.Matching d' R) (h : ∀ k : Key,
    EndAlike (d.FieldsAlike d' R) (section? d k.part) (section? d' k.part)) :
    ofDocument d' = ofDocument d := by
  unfold ofDocument
  refine (h .dt).bind_eq fun sim sim' hsim => ?_
  refine (h .linearSpeed).bind_eq fun rover rover' hrover => ?_
  refine (h .range).bind_eq fun sensor sensor' hsensor => ?_
  refine (h .maxCalls).bind_eq fun host host' hhost => ?_
  refine (h .journalPath).bind_eq fun logging logging' hlogging => ?_
  simp only [floatField_eq hsim, floatField_eq hrover, floatField_eq hsensor, intField_eq hsensor,
    intField_eq hhost, textField_eq hlogging _ hR]

/-- A section that is blank in both documents does not count. -/
theorem ofDocument_eq_of_blank {name : String} (h : Document.SameBut name d d')
    (hblank : d.Blank name) (hblank' : d'.Blank name) : ofDocument d' = ofDocument d := by
  obtain ⟨R, hR, hothers⟩ := h.field?
  refine ofDocument_eq_of_sections hR fun k => ?_
  by_cases hname : k.part = name
  · rw [hname, section?_of_blank h.isRecord hblank, section?_of_blank h.isRecord' hblank']
    exact .ok (d.fieldsAlike_emptyRecord d' R)
  · exact section?_alike hR (hothers k.part hname)

def NullMaps (d : Document) : Prop :=
  d.member? d.root "maps" = some (.plain .null)

theorem defaultMission_of_null (hroot : d.IsRecord d.root) (h : NullMaps d) :
    defaultMission d = .error .noFields := by
  rw [defaultMission, hroot.field?_eq, h]
  rfl

theorem defaultMission_of_blank (hroot : d.IsRecord d.root) (h : d.Blank "maps")
    (hnull : ¬ NullMaps d) : defaultMission d = .ok (.plain (.text "exo1-m1")) := by
  unfold defaultMission
  rw [hroot.field?_eq]
  cases h with
  | absent h =>
    rw [h]
    rfl
  | null h => exact absurd h hnull
  | @empty part h hrecord hempty =>
    have hnone := d.member?_of_isNothing hempty "default_mission"
    rw [h]
    dsimp only [bind, Except.bind, Option.getD]
    rw [hrecord.field?_eq, hnone]

theorem defaultMission_alike (hR : d.Matching d' R) (h : EndAlike (Option.Rel (Datum.Matched R))
    (d.field? d.root "maps") (d'.field? d'.root "maps")) :
    EndAlike (Datum.Matched R) (defaultMission d) (defaultMission d') := by
  unfold defaultMission
  generalize d.field? d.root "maps" = r, d'.field? d'.root "maps" = r' at h
  cases h with
  | error f => exact .error f
  | @ok o o' h =>
    have hmaps : d.FieldsAlike d' R (o.getD (.plain (.record [])))
        (o'.getD (.plain (.record []))) := by
      cases h with
      | none => exact d.fieldsAlike_emptyRecord d' R
      | some hpart => exact hR.field? hpart
    have hname := hmaps "default_mission"
    dsimp only [bind, Except.bind]
    generalize d.field? (o.getD (.plain (.record []))) "default_mission" = r,
      d'.field? (o'.getD (.plain (.record []))) "default_mission" = r' at hname
    cases hname with
    | error f => exact .error f
    | ok hname =>
      cases hname with
      | none => exact .ok (.plain _)
      | some hpart => exact .ok hpart

def namedMission (d : Document) : Except (Fault Binary64) Mission := do
  match ← defaultMission d with
  | .plain (.text id) => Catalog.find id
  | part => .error (.unknownMission (← d.shown part) Catalog.ids)

theorem namedMission_eq (hR : d.Matching d' R)
    (h : EndAlike (Datum.Matched R) (defaultMission d) (defaultMission d')) :
    namedMission d' = namedMission d :=
  h.bind_eq fun _ _ hpart => by
    have hshown := hR.shown_eq hpart
    cases hpart with
    | plain value =>
      cases value with
      | text id => rfl
      | _ => simp only [hshown]
    | _ => simp only [hshown]

theorem namedMission_of_null (hroot : d.IsRecord d.root) (h : NullMaps d) :
    namedMission d = .error .noFields := by
  rw [namedMission, defaultMission_of_null hroot h]
  rfl

theorem namedMission_of_blank (hroot : d.IsRecord d.root) (h : d.Blank "maps")
    (hnull : ¬ NullMaps d) : namedMission d = .ok Catalog.firstCoordinates := by
  rw [namedMission, defaultMission_of_blank hroot h hnull]
  rfl

theorem nullMaps_iff {name : String} (h : Document.SameBut name d d') (hname : name ≠ "maps") :
    NullMaps d ↔ NullMaps d' := by
  obtain ⟨R, -, hothers⟩ := h.others
  have hmaps := hothers "maps" hname.symm
  unfold NullMaps
  generalize d.member? d.root "maps" = o, d'.member? d'.root "maps" = o' at hmaps
  cases hmaps with
  | none => exact Iff.rfl
  | some hpart => cases hpart <;> simp

/-- A section that is blank in both documents does not count for the mission either, unless it names
the mission and is null in one of them. -/
theorem namedMission_eq_of_blank {name : String} (h : Document.SameBut name d d')
    (hblank : d.Blank name) (hblank' : d'.Blank name) (hnull : NullMaps d ↔ NullMaps d') :
    namedMission d' = namedMission d := by
  by_cases hname : name = "maps"
  · subst hname
    by_cases hmaps : NullMaps d
    · rw [namedMission_of_null h.isRecord hmaps, namedMission_of_null h.isRecord' (hnull.1 hmaps)]
    · rw [namedMission_of_blank h.isRecord hblank hmaps,
        namedMission_of_blank h.isRecord' hblank' (mt hnull.2 hmaps)]
  · obtain ⟨R, hR, hothers⟩ := h.field?
    exact namedMission_eq hR (defaultMission_alike hR (hothers "maps" (Ne.symm hname)))

end Settings

end PlanarDrive
