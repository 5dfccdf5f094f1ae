import PlanarDrive.Document
import PlanarDrive.Proofs.Fallible
import Mathlib.Data.List.Forall2

/-!
# Documents that hold the same

A value of a document is a part with everything that it leads to. Two documents hold the same value
when their places can be matched so that leaves are equal and what stands at matched places is
matched in turn, whatever else there is in the documents and whatever numbers the places have. What
is looked up, counted as nothing or shown as text is then the same. The text of a part is bounded
by the number of places, but places that are not part of the value do not shorten it.
-/

namespace PlanarDrive

variable {ε α β γ : Type}

theorem mapM_eq_of_forall₂ {A : α → β → Prop} {f : α → Except ε γ} {g : β → Except ε γ}
    {xs : List α} {ys : List β} (h : List.Forall₂ A xs ys) (hfg : ∀ a b, A a b → g b = f a) :
    ys.mapM g = xs.mapM f := by
  induction h with
  | nil => rfl
  | cons hab _ ih => rw [List.mapM_cons, List.mapM_cons, hfg _ _ hab, ih]

variable {R : Nat → Nat → Prop}

/-- The same leaf, or places that are matched. -/
inductive Datum.Matched (R : Nat → Nat → Prop) : Datum → Datum → Prop
  | plain (value : Value) : Matched R (.plain value) (.plain value)
  | bytes (content : List UInt8) : Matched R (.bytes content) (.bytes content)
  | date (value : Date) : Matched R (.date value) (.date value)
  | moment (value : Moment) : Matched R (.moment value) (.moment value)
  | link {a b : Nat} (h : R a b) : Matched R (.link a) (.link b)

def Datum.MatchedEntry (R : Nat → Nat → Prop) (e e' : Datum × Datum) : Prop :=
  Matched R e.1 e'.1 ∧ Matched R e.2 e'.2

namespace Datum.Matched

variable {p p' : Datum}

theorem key?_eq (h : Matched R p p') : p'.key? = p.key? := by
  cases h <;> rfl

theorem toFloat_eq (h : Matched R p p') : p'.toFloat = p.toFloat := by
  cases h <;> rfl

theorem toInt_eq (h : Matched R p p') : p'.toInt = p.toInt := by
  cases h <;> rfl

theorem refl_plain (o : Option Value) :
    Option.Rel (Matched R) (o.map .plain) (o.map .plain) := by
  cases o with
  | none => exact .none
  | some v => exact .some (.plain v)

/-- Matched entries have the same keys, so what is found under a key is matched. -/
theorem find? {entries entries' : List (Datum × Datum)}
    (h : List.Forall₂ (MatchedEntry R) entries entries') (key : Option Key) :
    Option.Rel (Matched R) ((entries.find? fun e => e.1.key? = key).map (·.2))
      ((entries'.find? fun e => e.1.key? = key).map (·.2)) := by
  induction h with
  | nil => exact .none
  | @cons e e' _ _ he _ ih =>
    by_cases hkey : e.1.key? = key
    · have hkey' : e'.1.key? = key := he.1.key?_eq.trans hkey
      rw [List.find?_cons_of_pos (by simpa using hkey),
        List.find?_cons_of_pos (by simpa using hkey')]
      exact .some he.2
    · have hkey' : e'.1.key? ≠ key := he.1.key?_eq ▸ hkey
      rw [List.find?_cons_of_neg (by simpa using hkey),
        List.find?_cons_of_neg (by simpa using hkey')]
      exact ih

end Datum.Matched

inductive Branch.Matched (R : Nat → Nat → Prop) : Branch → Branch → Prop
  | list {items items' : List Datum} (h : List.Forall₂ (Datum.Matched R) items items') :
    Matched R (.list items) (.list items')
  | record {entries entries' : List (Datum × Datum)}
    (h : List.Forall₂ (Datum.MatchedEntry R) entries entries') :
    Matched R (.record entries) (.record entries')
  | set {items items' : List Datum} (h : List.Forall₂ (Datum.Matched R) items items') :
    Matched R (.set items) (.set items')
  | pairs {items items' : List (Datum × Datum)}
    (h : List.Forall₂ (Datum.MatchedEntry R) items items') :
    Matched R (.pairs items) (.pairs items')

namespace Branch.Matched

variable {b b' : Branch}

theorem isEmpty_eq (h : Matched R b b') : b'.isEmpty = b.isEmpty := by
  cases h with
  | list h | record h | set h | pairs h => cases h <;> rfl

theorem ellipsis_eq (h : Matched R b b') : b'.ellipsis = b.ellipsis := by
  cases h <;> rfl

theorem quoted_eq (h : Matched R b b') {inner inner' : Datum → Except (Fault Binary64) (List Char)}
    (hinner : ∀ p p', Datum.Matched R p p' → inner' p' = inner p) :
    b'.quoted inner' = b.quoted inner := by
  cases h with
  | list h => rw [Branch.quoted, Branch.quoted, mapM_eq_of_forall₂ h hinner]
  | set h =>
    cases h with
    | nil => rfl
    | cons hp hrest => simp only [Branch.quoted, mapM_eq_of_forall₂ (.cons hp hrest) hinner]
  | record h | pairs h =>
    dsimp only [Branch.quoted]
    rw [mapM_eq_of_forall₂ h fun e e' he => by rw [hinner _ _ he.1, hinner _ _ he.2]]

end Branch.Matched

namespace Document

variable {d d' : Document}

def unopened (d : Document) (opened : List Nat) : List Nat :=
  (d.branches.map (·.1)).filter fun place => !opened.contains place

theorem length_unopened_le (d : Document) (opened : List Nat) :
    (d.unopened opened).length ≤ d.branches.length := by
  simpa [unopened] using List.length_filter_le _ (d.branches.map (·.1))

/-- To open a place leaves fewer of them. -/
theorem length_unopened_lt {place : Nat} {b : Branch} {opened : List Nat}
    (hb : d.branches.lookup place = some b) (hplace : opened.contains place = false) :
    (d.unopened (place :: opened)).length < (d.unopened opened).length := by
  have hmem : place ∈ d.unopened opened := by
    obtain ⟨before, after, hsplit, -⟩ := List.lookup_eq_some_iff.1 hb
    rw [unopened, List.mem_filter, hplace, hsplit]
    simp
  have hless : d.unopened (place :: opened) = (d.unopened opened).filter (· ≠ place) := by
    simp [unopened, List.filter_filter]
  rw [hless]
  exact List.length_filter_lt_length_iff_exists.2 ⟨place, hmem, by simp⟩

/-- Fuel for all places that are not opened is enough, and more of it changes nothing. -/
theorem quoted_eq_of_fuel {n m : Nat} {opened : List Nat} (hn : (d.unopened opened).length < n)
    (hm : (d.unopened opened).length < m) (p : Datum) :
    d.quoted n opened p = d.quoted m opened p := by
  induction n generalizing m opened p with
  | zero => exact absurd hn (Nat.not_lt_zero _)
  | succ n ih =>
    obtain ⟨m, rfl⟩ := Nat.exists_eq_succ_of_ne_zero (Nat.ne_zero_of_lt hm)
    cases p with
    | plain | bytes | date | moment => rfl
    | link place =>
      simp only [quoted]
      cases hb : d.branches.lookup place with
      | none => rfl
      | some b =>
        cases hplace : opened.contains place with
        | true => rfl
        | false =>
          -- Inside of this place it is not opened again, so the fuel is enough for the rest.
          have hless := length_unopened_lt hb hplace
          have hinner : d.quoted n (place :: opened) = d.quoted m (place :: opened) :=
            funext fun q => ih (by omega) (by omega) q
          simp only [hinner]

/-- Each place of a document is matched with one place of the other at most, and what stands at
matched places is matched. -/
structure Matching (d d' : Document) (R : Nat → Nat → Prop) : Prop where
  biUnique : Relator.BiUnique R
  branch : ∀ {a b : Nat}, R a b →
    Option.Rel (Branch.Matched R) (d.branches.lookup a) (d'.branches.lookup b)

namespace Matching

theorem contains_eq (hR : Relator.BiUnique R) {opened opened' : List Nat}
    (hopened : List.Forall₂ R opened opened') {a b : Nat} (hab : R a b) :
    opened'.contains b = opened.contains a := by
  induction hopened with
  | nil => rfl
  | @cons c c' _ _ hc _ ih =>
    have hhead : (b == c') = (a == c) := by
      rw [Bool.eq_iff_iff, beq_iff_eq, beq_iff_eq]
      exact ⟨fun h => hR.1 hab (h ▸ hc), fun h => hR.2 hab (h ▸ hc)⟩
    rw [List.contains_cons, List.contains_cons, hhead, ih]

variable (h : d.Matching d' R) {p p' : Datum}
include h

theorem quoted_eq (fuel : Nat) {opened opened' : List Nat} (hopened : List.Forall₂ R opened opened')
    (hp : Datum.Matched R p p') : d'.quoted fuel opened' p' = d.quoted fuel opened p := by
  induction fuel generalizing opened opened' p p' with
  | zero => rfl
  | succ fuel ih =>
    cases hp with
    | plain | bytes | date | moment => rfl
    | @link a b hab =>
      have hb := h.branch hab
      simp only [quoted]
      generalize d.branches.lookup a = x, d'.branches.lookup b = y at hb
      cases hb with
      | none => rfl
      | some hb =>
        simp only [contains_eq h.biUnique hopened hab, hb.ellipsis_eq,
          hb.quoted_eq fun q q' hq => ih (.cons hab hopened) hq]

/-- Matched parts are shown as the same text. -/
theorem shown_eq (hp : Datum.Matched R p p') : d'.shown p' = d.shown p := by
  cases hp with
  | plain value => cases value <;> rfl
  | bytes | date | moment => rfl
  | @link a b hab =>
    have hfuel := h.quoted_eq (d.branches.length + d'.branches.length + 1) .nil (.link hab)
    have hle := d.length_unopened_le []
    have hle' := d'.length_unopened_le []
    rw [quoted_eq_of_fuel (m := d'.branches.length + 1) (by omega) (by omega),
      quoted_eq_of_fuel (d := d) (m := d.branches.length + 1) (by omega) (by omega)] at hfuel
    simp only [shown, hfuel]

/-- What a part has under a name is matched, if it has fields at all. -/
theorem field? (hp : Datum.Matched R p p') (name : String) :
    EndAlike (Option.Rel (Datum.Matched R)) (d.field? p name) (d'.field? p' name) := by
  cases hp with
  | plain value =>
    rw [field?_plain, field?_plain]
    cases value.field? name with
    | ok o => exact .ok (Datum.Matched.refl_plain o)
    | error f => exact .error f
  | bytes | date | moment => exact .error _
  | @link a b hab =>
    have hb := h.branch hab
    simp only [Document.field?, branch?]
    generalize d.branches.lookup a = x, d'.branches.lookup b = y at hb
    cases hb with
    | none => exact .error _
    | some hb =>
      cases hb with
      | list | set | pairs => exact .error _
      | record hentries => exact .ok (Datum.Matched.find? hentries _)

theorem isNothing_eq (hp : Datum.Matched R p p') : d'.isNothing p' = d.isNothing p := by
  cases hp with
  | plain | bytes | date | moment => rfl
  | @link a b hab =>
    have hb := h.branch hab
    simp only [isNothing, branch?]
    generalize d.branches.lookup a = x, d'.branches.lookup b = y at hb
    cases hb with
    | none => rfl
    | some hb => exact hb.isEmpty_eq

end Matching

end Document

end PlanarDrive
