import PlanarDrive.Proofs.MatchedDocuments
import PlanarDrive.Settings

/-!
# The keys of the settings

Every key of the settings stands in a section of its own document under a name of its own. What the
settings hold under a key is the converted value of this key, or its default where there is none,
and does not depend on anything else in the document. Settings are refused only for a value that
cannot be converted, where the sections are records, null or left out.
-/

namespace PlanarDrive

namespace Document

variable {d : Document} {part : Datum} {name : String}

def member? (d : Document) (part : Datum) (name : String) : Option Datum :=
  (d.field? part name).toOption.join

def IsRecord (d : Document) (part : Datum) : Prop :=
  (∃ fields, part = .plain (.record fields)) ∨ ∃ entries, d.branch? part = some (.record entries)

/-- A section of a document is left out, null or a record. -/
def IsSection (d : Document) (name : String) : Prop :=
  ∀ part, d.member? d.root name = some part → part = .plain .null ∨ d.IsRecord part

theorem member?_of_field? {o : Option Datum} (h : d.field? part name = .ok o) :
    d.member? part name = o := by
  rw [member?, h]
  rfl

theorem IsRecord.field?_eq (h : d.IsRecord part) (name : String) :
    d.field? part name = .ok (d.member? part name) := by
  have hfield : ∃ o, d.field? part name = .ok o := by
    obtain ⟨fields, rfl⟩ | ⟨entries, h⟩ := h
    · exact ⟨_, rfl⟩
    · cases part with
      | plain | bytes | date | moment => cases h
      | link place =>
        simp only [field?, h]
        exact ⟨_, rfl⟩
  obtain ⟨o, ho⟩ := hfield
  rw [member?_of_field? ho, ho]

theorem member?_eq_none {entries : List (Datum × Datum)}
    (h : d.branch? part = some (.record entries))
    (hname : ∀ e ∈ entries, e.1.key? ≠ some (.text name)) : d.member? part name = none := by
  cases part with
  | plain | bytes | date | moment => cases h
  | link place =>
    simp only [member?, field?, h]
    rw [List.find?_eq_none.2 fun e he => by simpa using hname e he]
    rfl

@[simp] theorem member?_emptyRecord (d : Document) (name : String) :
    d.member? (.plain (.record [])) name = none :=
  rfl

theorem member?_of_isNothing (h : d.isNothing part = true) (name : String) :
    d.member? part name = none := by
  cases part with
  | plain value =>
    cases value with
    | record fields =>
      obtain rfl : fields = [] := List.isEmpty_iff.1 h
      rfl
    | _ => rfl
  | bytes | date | moment => rfl
  | link place =>
    simp only [isNothing, branch?] at h
    simp only [member?, field?, branch?]
    cases hb : d.branches.lookup place with
    | none => rfl
    | some b =>
      rw [hb] at h
      cases b with
      | record entries =>
        obtain rfl : entries = [] := List.isEmpty_iff.1 h
        rfl
      | list | set | pairs => rfl

end Document

namespace Settings

inductive Key
  | dt
  | linearSpeed
  | angularSpeed
  | range
  | beams
  | fieldOfView
  | maxCalls
  | journalPath
  deriving DecidableEq, Repr

namespace Key

def part : Key → String
  | dt => "sim"
  | linearSpeed | angularSpeed => "rover"
  | range | beams | fieldOfView => "sensor"
  | maxCalls => "host"
  | journalPath => "logging"

def name : Key → String
  | dt => "dt"
  | linearSpeed => "linear_speed"
  | angularSpeed => "angular_speed_deg"
  | range => "max_range"
  | beams => "num_beams"
  | fieldOfView => "fov_deg"
  | maxCalls => "max_calls"
  | journalPath => "telemetry_path"

def get (s : Settings) : Key → Value
  | dt => .float s.dt
  | linearSpeed => .float s.linearSpeed
  | angularSpeed => .float s.angularSpeed
  | range => .float s.range
  | beams => .int s.beams
  | fieldOfView => .float s.fieldOfView
  | maxCalls => .int s.maxCalls
  | journalPath => .text s.journalPath

def convert (d : Document) (k : Key) (value : Datum) : Except (Fault Binary64) Value :=
  match k with
  | beams | maxCalls => value.toInt.map .int
  | journalPath => (d.shown value).map .text
  | dt | linearSpeed | angularSpeed | range | fieldOfView => value.toFloat.map .float

def value? (d : Document) (k : Key) : Option Datum :=
  (d.member? d.root k.part).bind fun part => d.member? part k.name

/-- What a key comes to by itself: its converted value, or its default. -/
def settle (d : Document) (k : Key) : Except (Fault Binary64) Value :=
  (k.value? d).elim (.ok (k.get standard)) (k.convert d)

theorem exists_value_of_settle {d : Document} {k : Key} {f : Fault Binary64}
    (h : k.settle d = .error f) :
    ∃ value, k.value? d = some value ∧ k.convert d value = .error f := by
  unfold settle at h
  cases hvalue : k.value? d with
  | none =>
    rw [hvalue] at h
    cases h
  | some value =>
    rw [hvalue] at h
    exact ⟨value, rfl, h⟩

/-- What a key comes to depends on its own value alone. -/
theorem settle_eq_of_matching {d d' : Document} {R : Nat → Nat → Prop} (h : d.Matching d' R)
    {k : Key} (hvalue : Option.Rel (Datum.Matched R) (k.value? d) (k.value? d')) :
    k.settle d' = k.settle d := by
  unfold settle
  generalize k.value? d = o, k.value? d' = o' at hvalue
  cases hvalue with
  | none => rfl
  | some hvalue =>
    dsimp only [Option.elim]
    cases k with
    | beams | maxCalls => exact congrArg (Except.map Value.int) hvalue.toInt_eq
    | journalPath => exact congrArg (Except.map Value.text) (h.shown_eq hvalue)
    | dt | linearSpeed | angularSpeed | range | fieldOfView =>
      exact congrArg (Except.map Value.float) hvalue.toFloat_eq

end Key

variable {d : Document}

theorem member?_section? {name : String} {part : Datum} (h : section? d name = .ok part)
    (key : String) :
    d.member? part key = (d.member? d.root name).bind fun found => d.member? found key := by
  unfold section? at h
  cases hroot : d.field? d.root name with
  | error f =>
    rw [hroot] at h
    cases h
  | ok o =>
    rw [hroot] at h
    rw [Document.member?_of_field? hroot]
    cases o with
    | none =>
      cases h
      rfl
    | some found =>
      obtain rfl := Except.ok.inj h
      dsimp only [Option.bind_some]
      split
      · next hnothing => rw [Document.member?_of_isNothing hnothing, Document.member?_emptyRecord]
      · rfl

/-- What a key comes to in a part that is taken for its section. -/
def lookUp (d : Document) (part : Datum) (k : Key) : Except (Fault Binary64) Value := do
  (← d.field? part k.name).elim (.ok (k.get standard)) (k.convert d)

theorem lookUp_eq {α : Type} {part : Datum} {absent : α}
    {convert : Datum → Except (Fault Binary64) α} {r : Except (Fault Binary64) α} (k : Key)
    (hold : α → Value)
    (h : (d.field? part k.name >>= fun value => value.elim (.ok absent) convert) = r)
    (habsent : k.get standard = hold absent)
    (hconvert : k.convert d = fun value => (convert value).map hold) :
    lookUp d part k = r.map hold := by
  rw [← h, lookUp, habsent, hconvert]
  rcases d.field? part k.name with _ | _ | _ <;> rfl

theorem settle_of_lookUp {k : Key} {part : Datum} {value : Value}
    (hpart : section? d k.part = .ok part) (h : lookUp d part k = .ok value) :
    k.settle d = .ok value := by
  obtain ⟨o, hfield, h⟩ := bind_ok h
  rw [← Document.member?_of_field? hfield, member?_section? hpart] at h
  exact h

/-- What was read of a document is what each of its keys comes to. -/
theorem settle_of_ofDocument {s : Settings} (h : ofDocument d = .ok s) (k : Key) :
    k.settle d = .ok (k.get s) := by
  obtain ⟨sim, hsim, h⟩ := bind_ok h
  obtain ⟨rover, hrover, h⟩ := bind_ok h
  obtain ⟨sensor, hsensor, h⟩ := bind_ok h
  obtain ⟨host, hhost, h⟩ := bind_ok h
  obtain ⟨logging, hlogging, h⟩ := bind_ok h
  obtain ⟨dt, hdt, h⟩ := bind_ok h
  obtain ⟨linearSpeed, hlinear, h⟩ := bind_ok h
  obtain ⟨angularSpeed, hangular, h⟩ := bind_ok h
  obtain ⟨range, hrange, h⟩ := bind_ok h
  obtain ⟨beams, hbeams, h⟩ := bind_ok h
  obtain ⟨fieldOfView, hview, h⟩ := bind_ok h
  obtain ⟨maxCalls, hcalls, h⟩ := bind_ok h
  obtain ⟨journalPath, hpath, h⟩ := bind_ok h
  cases h
  cases k with
  | dt => exact settle_of_lookUp hsim (lookUp_eq .dt .float hdt rfl rfl)
  | linearSpeed => exact settle_of_lookUp hrover (lookUp_eq .linearSpeed .float hlinear rfl rfl)
  | angularSpeed => exact settle_of_lookUp hrover (lookUp_eq .angularSpeed .float hangular rfl rfl)
  | range => exact settle_of_lookUp hsensor (lookUp_eq .range .float hrange rfl rfl)
  | beams => exact settle_of_lookUp hsensor (lookUp_eq .beams .int hbeams rfl rfl)
  | fieldOfView => exact settle_of_lookUp hsensor (lookUp_eq .fieldOfView .float hview rfl rfl)
  | maxCalls => exact settle_of_lookUp hhost (lookUp_eq .maxCalls .int hcalls rfl rfl)
  | journalPath => exact settle_of_lookUp hlogging (lookUp_eq .journalPath .text hpath rfl rfl)

/-- Sections that are left out, null or records are found, and their keys can be looked up. -/
theorem lookUp_eq_settle (hroot : d.IsRecord d.root) {k : Key} (hpart : d.IsSection k.part) :
    ∃ part, section? d k.part = .ok part ∧ lookUp d part k = k.settle d := by
  have hrecord : ∃ part, section? d k.part = .ok part ∧ d.IsRecord part := by
    have hempty : d.IsRecord (.plain (.record [])) := .inl ⟨[], rfl⟩
    unfold section?
    rw [hroot.field?_eq]
    cases hentry : d.member? d.root k.part with
    | none => exact ⟨_, rfl, hempty⟩
    | some part =>
      dsimp only [Except.map]
      split
      · exact ⟨_, rfl, hempty⟩
      · next hsome =>
        obtain rfl | h := hpart part hentry
        · exact absurd rfl hsome
        · exact ⟨part, rfl, h⟩
  obtain ⟨part, h, hpart⟩ := hrecord
  refine ⟨part, h, ?_⟩
  rw [lookUp, hpart.field?_eq, member?_section? h]
  rfl

/-- Settings with such sections are refused only for what one of the keys comes to. -/
theorem exists_settle_of_ofDocument {f : Fault Binary64} (hroot : d.IsRecord d.root)
    (hpart : ∀ k : Key, d.IsSection k.part) (h : ofDocument d = .error f) :
    ∃ k : Key, k.settle d = .error f := by
  obtain ⟨sim, hsim, hdt⟩ := lookUp_eq_settle hroot (hpart .dt)
  obtain ⟨rover, hrover, hlinear⟩ := lookUp_eq_settle hroot (hpart .linearSpeed)
  obtain ⟨rover', hrover', hangular⟩ := lookUp_eq_settle hroot (hpart .angularSpeed)
  obtain ⟨sensor, hsensor, hrange⟩ := lookUp_eq_settle hroot (hpart .range)
  obtain ⟨sensor', hsensor', hbeams⟩ := lookUp_eq_settle hroot (hpart .beams)
  obtain ⟨sensor'', hsensor'', hview⟩ := lookUp_eq_settle hroot (hpart .fieldOfView)
  obtain ⟨host, hhost, hcalls⟩ := lookUp_eq_settle hroot (hpart .maxCalls)
  obtain ⟨logging, hlogging, hpath⟩ := lookUp_eq_settle hroot (hpart .journalPath)
  obtain rfl := Except.ok.inj (hrover.symm.trans hrover')
  obtain rfl := Except.ok.inj (hsensor.symm.trans hsensor')
  obtain rfl := Except.ok.inj (hsensor.symm.trans hsensor'')
  -- The sections are found, so the first key that is refused has refused the settings.
  replace h := bind_error_of_ok hsim h
  replace h := bind_error_of_ok hrover h
  replace h := bind_error_of_ok hsensor h
  replace h := bind_error_of_ok hhost h
  replace h := bind_error_of_ok hlogging h
  obtain hbad | ⟨_, -, h⟩ := bind_error h
  · exact ⟨.dt, hdt.symm.trans (lookUp_eq .dt .float hbad rfl rfl)⟩
  obtain hbad | ⟨_, -, h⟩ := bind_error h
  · exact ⟨.linearSpeed, hlinear.symm.trans (lookUp_eq .linearSpeed .float hbad rfl rfl)⟩
  obtain hbad | ⟨_, -, h⟩ := bind_error h
  · exact ⟨.angularSpeed, hangular.symm.trans (lookUp_eq .angularSpeed .float hbad rfl rfl)⟩
  obtain hbad | ⟨_, -, h⟩ := bind_error h
  · exact ⟨.range, hrange.symm.trans (lookUp_eq .range .float hbad rfl rfl)⟩
  obtain hbad | ⟨_, -, h⟩ := bind_error h
  · exact ⟨.beams, hbeams.symm.trans (lookUp_eq .beams .int hbad rfl rfl)⟩
  obtain hbad | ⟨_, -, h⟩ := bind_error h
  · exact ⟨.fieldOfView, hview.symm.trans (lookUp_eq .fieldOfView .float hbad rfl rfl)⟩
  obtain hbad | ⟨_, -, h⟩ := bind_error h
  · exact ⟨.maxCalls, hcalls.symm.trans (lookUp_eq .maxCalls .int hbad rfl rfl)⟩
  obtain hbad | ⟨_, -, h⟩ := bind_error h
  · exact ⟨.journalPath, hpath.symm.trans (lookUp_eq .journalPath .text hbad rfl rfl)⟩
  cases h

end Settings

end PlanarDrive
