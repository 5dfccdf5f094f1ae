import PlanarDrive.Json.Reader
import PlanarDrive.Json.Writer

/-!
# Numbers and their text

A written number has digits before a point or an exponent, and no zero in front of others. The
reader of free text and the reader of JSON see the same parts in such a text, so that they agree on
its value; neither reads on when what follows can belong to no number. Exact numbers and integers
are written so.
-/

namespace PlanarDrive

namespace Decimal

def AllDigits (ds : List Char) : Prop :=
  ∀ c ∈ ds, isDigit c = true

def NoLeadingZero (ds : List Char) : Prop :=
  ds = ['0'] ∨ ∃ c rest, ds = c :: rest ∧ c ≠ '0'

/-- What follows a number and is no part of it. -/
def Closes (rest : List Char) : Prop :=
  ∀ c ∈ rest.head?, isDigit c = false ∧ c ≠ '.' ∧ c ≠ 'e' ∧ c ≠ 'E'

/-- What holds of the ten digits holds of every digit. -/
theorem forall_digit {P : Char → Prop} (h : ∀ n < 10, P (Char.ofNat (48 + n))) {c : Char}
    (hc : isDigit c = true) : P c := by
  simp only [isDigit, Bool.and_eq_true, decide_eq_true_eq] at hc
  have hlow : 48 ≤ c.toNat := hc.1
  have hhigh : c.toNat ≤ 57 := hc.2
  have hp := h (c.toNat - 48) (by omega)
  rwa [show 48 + (c.toNat - 48) = c.toNat by omega, Char.ofNat_toNat] at hp

theorem isDigit_of_isDigit {c : Char} (h : c.isDigit = true) : isDigit c = true := by
  simpa [isDigit, Char.isDigit, Char.le_def] using h

theorem allDigits_digits (n : Nat) : AllDigits (digits n) := fun _ hc =>
  isDigit_of_isDigit (Nat.isDigit_of_mem_toDigits (by decide) (by decide) hc)

theorem digits_ne_nil (n : Nat) : digits n ≠ [] :=
  Nat.toDigits_ne_nil

theorem ofDigits_digits (n : Nat) : ofDigits (digits n) = n :=
  Nat.ofDigitChars_toDigits (by decide) (by decide)

theorem noLeadingZero_digits (n : Nat) : NoLeadingZero (digits n) := by
  induction n using Nat.strongRecOn with
  | ind n ih =>
    by_cases hn : n < 10
    · have hd : digits n = [n.digitChar] := Nat.toDigits_of_lt_base hn
      by_cases hz : n = 0
      · exact .inl (by rw [hd, hz]; rfl)
      · exact .inr ⟨_, [], hd, by simpa using hz⟩
    · have hd : digits n = digits (n / 10) ++ [(n % 10).digitChar] :=
        Nat.toDigits_of_base_le (by decide) (by omega)
      rcases ih (n / 10) (by omega) with hzero | ⟨c, rest, hc, hne⟩
      · have hvalue := ofDigits_digits (n / 10)
        rw [hzero] at hvalue
        have : n / 10 = 0 := hvalue.symm
        omega
      · exact .inr ⟨c, rest ++ [(n % 10).digitChar], by rw [hd, hc]; rfl, hne⟩

section Runs

variable {ds rest : List Char} (hds : AllDigits ds) (hrest : ∀ c ∈ rest.head?, isDigit c = false)
include hds hrest

theorem takeWhile_digits : (ds ++ rest).takeWhile isDigit = ds := by
  rw [List.takeWhile_append_of_pos hds]
  cases rest with
  | nil => simp
  | cons c rest => rw [List.takeWhile_cons_of_neg (by simp [hrest c rfl]), List.append_nil]

theorem dropWhile_digits : (ds ++ rest).dropWhile isDigit = rest := by
  rw [List.dropWhile_append_of_pos hds]
  cases rest with
  | nil => rfl
  | cons c rest => exact List.dropWhile_cons_of_neg (by simp [hrest c rfl])

end Runs

/-- An exponent and its text, which is empty or has a sign and digits. -/
inductive ExponentText : Int → List Char → Prop
  | absent : ExponentText 0 []
  | signed (negative : Bool) {ds : List Char} (hne : ds ≠ []) (hds : AllDigits ds) :
    ExponentText (if negative then -(ofDigits ds : Int) else ofDigits ds)
      ('e' :: (if negative then '-' else '+') :: ds)

def fractionText (fraction : List Char) : List Char :=
  if fraction = [] then [] else '.' :: fraction

/-- The text without a sign has the parts of a spelling. It is not the text of an integer. -/
structure Spelling.Spells (s : Spelling) (text : List Char) : Prop where
  whole : AllDigits s.whole
  leading : NoLeadingZero s.whole
  fraction : AllDigits s.fraction
  short : s.whole.length ≤ digitLimit
  parts : ∃ tail, ExponentText s.exponent tail ∧
    text = s.whole ++ (fractionText s.fraction ++ tail) ∧ (s.fraction ≠ [] ∨ tail ≠ [])

theorem NoLeadingZero.ne_nil {ds : List Char} (h : NoLeadingZero ds) : ds ≠ [] := by
  rcases h with rfl | ⟨c, rest, rfl, -⟩ <;> simp

theorem takeSign_signed (negative : Bool) (ds : List Char) :
    takeSign ((if negative then '-' else '+') :: ds) = (negative, ds) := by
  cases negative <;> rfl

theorem ExponentText.read {e : Int} {tail : List Char} (h : ExponentText e tail) :
    readExponent tail = some e := by
  cases h with
  | absent => rfl
  | signed negative hne hds =>
    have hall : List.all _ isDigit = true := List.all_eq_true.2 hds
    simp [readExponent, takeSign_signed, hne, hall]

theorem ExponentText.part {e : Int} {tail rest : List Char} (h : ExponentText e tail)
    (hrest : Closes rest) :
    Json.exponentPart (tail ++ rest) = (if tail = [] then none else some e, rest) := by
  cases h with
  | absent =>
    cases rest with
    | nil => rfl
    | cons c rest =>
      obtain ⟨-, -, he, hE⟩ := hrest c rfl
      simp [Json.exponentPart, he, hE]
  | signed negative hne hds =>
    have hhead : ∀ c ∈ rest.head?, isDigit c = false := fun c hc => (hrest c hc).1
    simp [Json.exponentPart, takeSign_signed, takeWhile_digits hds hhead,
      dropWhile_digits hds hhead, hne]

theorem ExponentText.head {e : Int} {tail rest : List Char} (h : ExponentText e tail)
    (hrest : Closes rest) : ∀ c ∈ (tail ++ rest).head?, isDigit c = false ∧ c ≠ '.' := by
  cases h with
  | absent => exact fun c hc => ⟨(hrest c hc).1, (hrest c hc).2.1⟩
  | signed negative hne hds =>
    rintro c hc
    cases Option.mem_some.1 hc
    exact ⟨rfl, by decide⟩

theorem closes_nil : Closes [] := by
  rintro c ⟨⟩

theorem fractionText_head {fraction more : List Char}
    (hmore : ∀ c ∈ more.head?, isDigit c = false) :
    ∀ c ∈ (fractionText fraction ++ more).head?, isDigit c = false := by
  unfold fractionText
  split
  · exact hmore
  · rintro c hc
    cases Option.mem_some.1 hc
    rfl

theorem fractionPart_text {fraction more : List Char} (hf : AllDigits fraction)
    (hmore : ∀ c ∈ more.head?, isDigit c = false ∧ c ≠ '.') :
    Json.fractionPart (fractionText fraction ++ more) = (fraction, more) := by
  have hhead : ∀ c ∈ more.head?, isDigit c = false := fun c hc => (hmore c hc).1
  cases fraction with
  | nil =>
    cases more with
    | nil => rfl
    | cons c more =>
      have hne : c ≠ '.' := (hmore c rfl).2
      unfold Json.fractionPart fractionText
      split
      · next h => simp_all
      · rfl
  | cons d ds =>
    have hd : isDigit d = true := hf d List.mem_cons_self
    have hds : AllDigits ds := fun c hc => hf c (List.mem_cons_of_mem d hc)
    simp [fractionText, Json.fractionPart, hd, takeWhile_digits hds hhead,
      dropWhile_digits hds hhead]

theorem wholePart_text {whole more : List Char} (hw : AllDigits whole) (hz : NoLeadingZero whole)
    (hmore : ∀ c ∈ more.head?, isDigit c = false) :
    Json.wholePart (whole ++ more) = (whole, more) := by
  rcases hz with rfl | ⟨c, rest, rfl, hc⟩
  · rfl
  · have hsplit : Json.wholePart (c :: rest ++ more) =
        ((c :: rest ++ more).takeWhile isDigit, (c :: rest ++ more).dropWhile isDigit) := by
      unfold Json.wholePart
      split
      · next h => simp_all
      · rfl
    rw [hsplit, takeWhile_digits hw hmore, dropWhile_digits hw hmore]

namespace Spelling.Spells

variable {s : Spelling} {text : List Char} (h : s.Spells text)
include h

theorem first : ∃ c tail, text = c :: tail ∧ isDigit c = true := by
  obtain ⟨tail, -, htext, -⟩ := h.parts
  obtain ⟨c, more, hw⟩ := List.exists_cons_of_ne_nil h.leading.ne_nil
  exact ⟨c, _, by rw [htext, hw]; rfl, h.whole c (by rw [hw]; exact List.mem_cons_self)⟩

theorem number {rest : List Char} (hrest : Closes rest) :
    Json.number s.negative (text ++ rest) = (.leaf (.float s.value), rest) := by
  obtain ⟨tail, htail, rfl, hsome⟩ := h.parts
  have hhead := htail.head hrest
  have hmore : ∀ c ∈ (fractionText s.fraction ++ (tail ++ rest)).head?, isDigit c = false :=
    fractionText_head fun c hc => (hhead c hc).1
  have hwhole : s.whole ≠ [] := h.leading.ne_nil
  rw [List.append_assoc, List.append_assoc]
  simp only [Json.number, wholePart_text h.whole h.leading hmore,
    fractionPart_text h.fraction hhead, htail.part hrest, List.isEmpty_iff]
  rw [if_neg hwhole]
  by_cases ht : tail = []
  · have hf : s.fraction ≠ [] := hsome.resolve_right (not_not_intro ht)
    have he : s.exponent = 0 := by
      have hread := htail.read
      rw [ht] at hread
      exact (Option.some.inj hread).symm
    simp [ht, hf, ← he]
  · simp [ht]

theorem readSpelling : readSpelling s.negative text = some s := by
  obtain ⟨tail, htail, rfl, -⟩ := h.parts
  have hhead := htail.head closes_nil
  rw [List.append_nil] at hhead
  have hnot : ∀ c ∈ tail.head?, isDigit c = false := fun c hc => (hhead c hc).1
  have hmore : ∀ c ∈ (fractionText s.fraction ++ tail).head?, isDigit c = false :=
    fractionText_head hnot
  have hwhole : s.whole ≠ [] := h.leading.ne_nil
  have hfraction : AllDigits s.fraction := h.fraction
  unfold Decimal.readSpelling
  rw [takeWhile_digits h.whole hmore, dropWhile_digits h.whole hmore]
  clear h hmore
  obtain ⟨negative, whole, fraction, exponent⟩ := s
  by_cases hf : fraction = []
  · subst hf
    have hread : readExponent tail = some exponent := htail.read
    cases tail with
    | nil => simp_all [fractionText]
    | cons c more =>
      have hc : c ≠ '.' := (hhead c rfl).2
      simp only [fractionText, if_true, List.nil_append]
      split
      next f r hpoint => exact absurd (List.cons.inj hpoint).1 hc
      next => simp_all
  · have hpoint : fractionText fraction ++ tail = '.' :: (fraction ++ tail) := by
      simp [fractionText, hf]
    simp_all [takeWhile_digits hfraction hnot, dropWhile_digits hfraction hnot, htail.read]

end Spelling.Spells

def IsNumberChar (c : Char) : Prop :=
  isDigit c = true ∨ c ∈ ['.', 'e', '+', '-']

theorem forall_numberChar {P : Char → Prop} (hdigit : ∀ n < 10, P (Char.ofNat (48 + n)))
    (hmark : P '.' ∧ P 'e' ∧ P '+' ∧ P '-') {c : Char} (hc : IsNumberChar c) : P c := by
  rcases hc with hc | hc
  · exact forall_digit hdigit hc
  · obtain ⟨hpoint, he, hplus, hminus⟩ := hmark
    simp only [List.mem_cons, List.not_mem_nil, or_false] at hc
    rcases hc with rfl | rfl | rfl | rfl
    · exact hpoint
    · exact he
    · exact hplus
    · exact hminus

theorem AllDigits.numberChars {ds : List Char} (h : AllDigits ds) : ∀ c ∈ ds, IsNumberChar c :=
  fun c hc => .inl (h c hc)

theorem ExponentText.numberChars {e : Int} {tail : List Char} (h : ExponentText e tail) :
    ∀ c ∈ tail, IsNumberChar c := by
  intro c hc
  cases h with
  | absent => cases hc
  | signed negative hne hds =>
    rcases List.mem_cons.1 hc with rfl | hc
    · exact .inr (by decide)
    · rcases List.mem_cons.1 hc with rfl | hc
      · exact .inr (by cases negative <;> decide)
      · exact hds.numberChars c hc

theorem Spelling.Spells.numberChars {s : Spelling} {text : List Char} (h : s.Spells text) :
    ∀ c ∈ text, IsNumberChar c := by
  obtain ⟨tail, htail, rfl, -⟩ := h.parts
  intro c hc
  rcases List.mem_append.1 hc with hw | hc
  · exact h.whole.numberChars c hw
  · rcases List.mem_append.1 hc with hf | ht
    · unfold fractionText at hf
      split at hf
      · cases hf
      · rcases List.mem_cons.1 hf with rfl | hf
        · exact .inr (by decide)
        · exact h.fraction.numberChars c hf
    · exact htail.numberChars c ht

theorem trim_of_forall {kind : Char → Bool} {text : List Char} (h : ∀ c ∈ text, kind c = false) :
    Text.trim kind text = text := by
  have hkeep {cs : List Char} (hcs : ∀ c ∈ cs, kind c = false) : cs.dropWhile kind = cs := by
    cases cs with
    | nil => rfl
    | cons c rest => exact List.dropWhile_cons_of_neg (by simp [hcs c List.mem_cons_self])
  unfold Text.trim
  rw [hkeep h, hkeep fun c hc => h c (List.mem_reverse.1 hc), List.reverse_reverse]

theorem IsNumberChar.isMargin_eq {c : Char} (hc : IsNumberChar c) : isMargin c = false :=
  forall_numberChar (P := fun c => isMargin c = false) (by decide) (by decide) hc

theorem IsNumberChar.ne_underscore {c : Char} (hc : IsNumberChar c) : c ≠ '_' :=
  forall_numberChar (P := fun c => c ≠ '_') (by decide) (by decide) hc

theorem IsNumberChar.normalize_eq {c : Char} (hc : IsNumberChar c) :
    (Text.digitValue? c).elim c (fun d => Char.ofNat ('0'.toNat + d)) = c :=
  forall_numberChar
    (P := fun c => (Text.digitValue? c).elim c (fun d => Char.ofNat ('0'.toNat + d)) = c)
    (by decide) (by decide) hc

theorem normalize_of_numberChars {text : List Char} (h : ∀ c ∈ text, IsNumberChar c) :
    normalize text = text := by
  unfold normalize
  rw [trim_of_forall fun c hc => (h c hc).isMargin_eq]
  exact (List.map_congr_left fun c hc => (h c hc).normalize_eq).trans (List.map_id text)

theorem dropGrouping_of_numberChars {text : List Char} (h : ∀ c ∈ text, IsNumberChar c) :
    dropGrouping text = some text := by
  fun_induction dropGrouping text with
  | case1 => rfl
  | case2 => exact absurd rfl (h '_' List.mem_cons_self).ne_underscore
  | case3 c d rest hd ih =>
    exact absurd rfl (h '_' (List.mem_cons_of_mem _ List.mem_cons_self)).ne_underscore
  | case4 c d rest hd =>
    exact absurd rfl (h '_' (List.mem_cons_of_mem _ List.mem_cons_self)).ne_underscore
  | case5 c rest h₁ h₂ ih =>
    rw [ih fun a ha => h a (List.mem_cons_of_mem c ha)]
    rfl

theorem takeSign_of_isDigit {d : Char} (hd : isDigit d = true) (rest : List Char) :
    takeSign (d :: rest) = (false, d :: rest) := by
  unfold takeSign
  split
  · next h => cases h; cases hd
  · next h => cases h; cases hd
  · rfl

def signedText (negative : Bool) (text : List Char) : List Char :=
  if negative then '-' :: text else text

theorem Spelling.Spells.signed_numberChars {s : Spelling} {text : List Char} (h : s.Spells text) :
    ∀ c ∈ signedText s.negative text, IsNumberChar c := by
  intro c hc
  unfold signedText at hc
  split at hc
  · rcases List.mem_cons.1 hc with rfl | hc
    · exact .inr (by decide)
    · exact h.numberChars c hc
  · exact h.numberChars c hc

theorem Spelling.Spells.readFloat {s : Spelling} {text : List Char} (h : s.Spells text) :
    readFloat (signedText s.negative text) = some s.value := by
  have hchars := h.signed_numberChars
  obtain ⟨d, more, htext, hd⟩ := h.first
  have hsign : takeSign (signedText s.negative text) = (s.negative, text) := by
    rw [htext]
    cases s.negative
    · exact takeSign_of_isDigit hd more
    · rfl
  have hname {c : Char} {rest : List Char} (hc : d.toLower ≠ c) :
      String.ofList (text.map Char.toLower) ≠ String.ofList (c :: rest) := by
    intro heq
    rw [String.ofList_inj, htext, List.map_cons, List.cons.injEq] at heq
    exact hc heq.1
  have hi : d.toLower ≠ 'i' := forall_digit (P := fun d => d.toLower ≠ 'i') (by decide) hd
  have hn : d.toLower ≠ 'n' := forall_digit (P := fun d => d.toLower ≠ 'n') (by decide) hd
  have hinf : String.ofList (text.map Char.toLower) ≠ "inf" := hname hi
  have hinfinity : String.ofList (text.map Char.toLower) ≠ "infinity" := hname hi
  have hnan : String.ofList (text.map Char.toLower) ≠ "nan" := hname hn
  unfold Decimal.readFloat
  rw [normalize_of_numberChars hchars, dropGrouping_of_numberChars hchars, Option.bind_eq_bind,
    Option.bind_some, hsign]
  simp only [hinf, hinfinity, hnan, or_self, if_false, h.readSpelling, Option.map_some]

end Decimal

end PlanarDrive
