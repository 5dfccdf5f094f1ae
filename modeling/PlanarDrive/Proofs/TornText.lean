import PlanarDrive.Proofs.JsonScan

/-!
# What is left of a record that was cut

A value that was cut is read as far as it goes: a number may have lost digits, a string or a word is
no token any more, and a list or a record lacks its end. So no part of a record is read, and the
only fault that is found in it is that it is no JSON.
-/

namespace PlanarDrive

namespace Decimal

theorem AllDigits.of_prefix {ds p : List Char} (h : AllDigits ds) (hp : p <+: ds) : AllDigits p :=
  fun c hc => h c (hp.subset hc)

theorem NoLeadingZero.of_prefix {ds p : List Char} (h : NoLeadingZero ds) (hp : p <+: ds)
    (hne : p ≠ []) : NoLeadingZero p := by
  rcases h with rfl | ⟨c, rest, rfl, hc⟩
  · rcases List.prefix_cons_iff.1 hp with rfl | ⟨q, rfl, hq⟩
    · exact absurd rfl hne
    · rw [List.prefix_nil.1 hq]
      exact .inl rfl
  · rcases List.prefix_cons_iff.1 hp with rfl | ⟨q, rfl, -⟩
    · exact absurd rfl hne
    · exact .inr ⟨c, q, rfl, hc⟩

end Decimal

namespace Json

open Decimal

/-- At most one leaf, and at most one place where nothing can be read, after it. -/
def isLoose : List Token → Bool
  | [] | [.malformed] | [.leaf _] | [.leaf _, .malformed] => true
  | _ => false

section Numbers

variable {whole more rest : List Char}

/-- A number is a leaf, with a fraction and an exponent or without. -/
theorem number_leaf (negative : Bool) {fraction tail : List Char} {e : Option Int}
    (hw : AllDigits whole) (hz : NoLeadingZero whole) (hshort : whole.length ≤ digitLimit)
    (hmore : ∀ c ∈ more.head?, isDigit c = false) (hfraction : fractionPart more = (fraction, tail))
    (hexponent : exponentPart tail = (e, rest)) :
    ∃ v, number negative (whole ++ more) = (.leaf v, rest) := by
  have hlong : ¬digitLimit < whole.length := by omega
  have hne : whole ≠ [] := hz.ne_nil
  simp only [number, wholePart_text hw hz hmore, hfraction, hexponent, List.isEmpty_iff, hne, hlong,
    if_false]
  split <;> exact ⟨_, rfl⟩

/-- Nothing is left behind a number that was cut but a point or an exponent without digits. -/
def Remnant (rest : List Char) : Prop :=
  rest = [] ∨ ∃ c tail, rest = c :: tail ∧ (c = '.' ∨ c = 'e')

theorem isLoose_number {negative : Bool} {text : List Char} {v : Value}
    (hdigits : ∃ c tail, text = c :: tail ∧ isDigit c = true)
    (h : number negative text = (.leaf v, rest)) (hrest : Remnant rest) :
    isLoose (tokens (signedText negative text)) = true := by
  obtain ⟨c, tail, rfl, hc⟩ := hdigits
  have hloose : isLoose (.leaf v :: tokens rest) = true := by
    rcases hrest with rfl | ⟨d, tail, rfl, rfl | rfl⟩
    · rfl
    · rw [tokens_cons rfl]
      rfl
    · rw [tokens_cons rfl]
      rfl
  cases negative with
  | false =>
    show isLoose (tokens (c :: tail)) = true
    rw [tokens_cons (isSpace_of_isDigit hc), next_of_isDigit hc, h]
    exact hloose
  | true =>
    show isLoose (tokens ('-' :: c :: tail)) = true
    rw [tokens_cons rfl, next_minus hc, h]
    exact hloose

theorem number_parts (negative : Bool) {fraction left : List Char} {e : Option Int}
    (hw : AllDigits whole) (hz : NoLeadingZero whole) (hshort : whole.length ≤ digitLimit)
    (hf : AllDigits fraction) (hleft : ∀ c ∈ left.head?, isDigit c = false ∧ c ≠ '.')
    (hexponent : exponentPart left = (e, rest)) :
    ∃ v, number negative (whole ++ (fractionText fraction ++ left)) = (.leaf v, rest) :=
  number_leaf negative hw hz hshort (fractionText_head fun c hc => (hleft c hc).1)
    (fractionPart_text hf hleft) hexponent

/-- What is left of the digits before the point. -/
theorem number_cut_whole (negative : Bool) {p : List Char} (hw : AllDigits whole)
    (hz : NoLeadingZero whole) (hshort : whole.length ≤ digitLimit) (hp : p <+: whole)
    (hne : p ≠ []) : ∃ v, number negative p = (.leaf v, []) := by
  have hleft : ∃ v, number negative (p ++ (fractionText [] ++ [])) = (.leaf v, []) :=
    number_parts negative (hw.of_prefix hp) (hz.of_prefix hp hne)
      (Nat.le_trans hp.length_le hshort) (allDigits_zeros 0) (by simp) rfl
  simpa [fractionText] using hleft

/-- However much of a written number is left, it is a number. -/
theorem number_cut {s : Spelling} {text p : List Char} (h : s.Spells text) (negative : Bool)
    (hp : p <+: text) (hne : p ≠ []) :
    ∃ v rest, number negative p = (.leaf v, rest) ∧ Remnant rest := by
  obtain ⟨tail, htail, rfl, -⟩ := h.parts
  rcases prefix_append_cases hp with hp | ⟨c, q, rfl, hq⟩
  · obtain ⟨v, hv⟩ := number_cut_whole negative h.whole h.leading h.short hp hne
    exact ⟨v, [], hv, .inl rfl⟩
  rcases prefix_append_cases hq with hq | ⟨d, r, heq, hr⟩
  · unfold fractionText at hq
    split at hq
    · cases List.prefix_nil.1 hq
    obtain ⟨rfl, hdigits⟩ := List.cons_prefix_cons.1 hq
    cases q with
    | nil =>
      obtain ⟨v, hv⟩ : ∃ v, number negative (s.whole ++ ['.']) = (.leaf v, ['.']) :=
        number_leaf negative h.whole h.leading h.short (by simp [isDigit]) rfl rfl
      exact ⟨v, ['.'], hv, .inr ⟨'.', [], rfl, .inl rfl⟩⟩
    | cons d q =>
      obtain ⟨v, hv⟩ : ∃ v, number negative (s.whole ++ (fractionText (d :: q) ++ [])) =
          (.leaf v, []) :=
        number_parts negative h.whole h.leading h.short (h.fraction.of_prefix hdigits) (by simp) rfl
      exact ⟨v, [], by simpa [fractionText] using hv, .inl rfl⟩
  · rw [heq]
    have hparts {e : Option Int} {rest : List Char} (hd : isDigit d = false ∧ d ≠ '.')
        (hexponent : exponentPart (d :: r) = (e, rest)) (hrest : Remnant rest) :
        ∃ v rest, number negative (s.whole ++ (fractionText s.fraction ++ d :: r)) =
          (.leaf v, rest) ∧ Remnant rest := by
      have hhead : ∀ c ∈ (d :: r).head?, isDigit c = false ∧ c ≠ '.' := by simpa using hd
      obtain ⟨v, hv⟩ := number_parts negative h.whole h.leading h.short h.fraction hhead hexponent
      exact ⟨v, rest, hv, hrest⟩
    generalize s.exponent = e at htail
    cases htail with
    | absent => cases List.prefix_nil.1 hr
    | @signed minus ds hds hall =>
      obtain ⟨rfl, hsigned⟩ := List.cons_prefix_cons.1 hr
      have hremnant (tail : List Char) : Remnant ('e' :: tail) := .inr ⟨'e', tail, rfl, .inr rfl⟩
      rcases List.prefix_cons_iff.1 hsigned with rfl | ⟨es, rfl, hes⟩
      · exact hparts (by decide) rfl (hremnant _)
      · cases es with
        | nil => cases minus <;> exact hparts (by decide) rfl (hremnant _)
        | cons c es =>
          have hpart := (ExponentText.signed minus (List.cons_ne_nil c es)
            (hall.of_prefix hes)).part closes_nil
          rw [List.append_nil] at hpart
          exact hparts (by decide) hpart (.inl rfl)

theorem isLoose_word {word p : List Char}
    (h : ∀ n < word.length + 1, isLoose (tokens (word.take n)) = true) (hp : p <+: word) :
    isLoose (tokens p) = true := by
  rw [List.prefix_iff_eq_take.1 hp]
  exact h _ (Nat.lt_succ_of_le hp.length_le)

/-- A sign may be left alone. -/
theorem isLoose_signed {negative : Bool} {text p : List Char}
    (hdigit : ∀ c ∈ text.head?, isDigit c = true)
    (hcut : ∀ q, q <+: text → q ≠ [] → ∃ v rest, number negative q = (.leaf v, rest) ∧ Remnant rest)
    (hp : p <+: signedText negative text) : isLoose (tokens p) = true := by
  have hpart {q : List Char} (hq : q <+: text) (hne : q ≠ []) :
      isLoose (tokens (signedText negative q)) = true := by
    obtain ⟨v, rest, hnumber, hrest⟩ := hcut q hq hne
    obtain ⟨c, tail, rfl⟩ := List.exists_cons_of_ne_nil hne
    obtain ⟨more, rfl⟩ := hq
    exact isLoose_number ⟨c, tail, rfl, hdigit c rfl⟩ hnumber hrest
  cases negative with
  | false =>
    by_cases hne : p = []
    · rw [hne]
      rfl
    · exact hpart hp hne
  | true =>
    rcases List.prefix_cons_iff.1 hp with rfl | ⟨q, rfl, hq⟩
    · rfl
    · by_cases hne : q = []
      · rw [hne, tokens_cons rfl]
        rfl
      · exact hpart hq hne

theorem isLoose_intText {n : Int} (hshort : (digits n.natAbs).length ≤ digitLimit) {p : List Char}
    (hp : p <+: Value.intText n) : isLoose (tokens p) = true := by
  have hds := allDigits_digits n.natAbs
  have htext : Value.intText n = signedText (decide (n < 0)) (digits n.natAbs) := by
    simp [Value.intText, signedText]
  refine isLoose_signed (fun c hc => hds c (List.mem_of_head? hc)) (fun q hq hne => ?_) (htext ▸ hp)
  obtain ⟨v, hv⟩ := number_cut_whole _ hds (noLeadingZero_digits _) hshort hq hne
  exact ⟨v, [], hv, .inl rfl⟩

theorem isLoose_writeFloat {x : Binary64} {p : List Char} (hp : p <+: writeFloat x) :
    isLoose (tokens p) = true := by
  unfold writeFloat at hp
  split at hp
  · exact isLoose_word (by decide) hp
  · next hnan =>
    split at hp
    · split at hp
      · exact isLoose_word (by decide) hp
      · exact isLoose_word (by decide) hp
    · next hinf =>
      obtain ⟨s, text, hspells, htext, -⟩ :=
        exact_spells (by simpa using hnan) (by simpa using hinf)
      obtain ⟨c, tail, rfl, hc⟩ := hspells.first
      rw [htext] at hp
      exact isLoose_signed (by simpa using hc) (fun q hq hne => number_cut hspells _ hq hne) hp

end Numbers

/-- A string that was cut is no token. -/
theorem tokens_cut_writeText {s p : List Char} (hp : p <+: writeText s) (hcut : p ≠ writeText s) :
    tokens p = [] ∨ tokens p = [.malformed] := by
  rcases List.prefix_cons_iff.1 hp with rfl | ⟨q, rfl, hq⟩
  · exact .inl rfl
  have hq : q <+: s.flatMap writeChar :=
    (List.prefix_concat_iff.1 hq).resolve_left fun h => hcut (by rw [h]; rfl)
  have hnone : stringBody [] q = none := by
    cases hbody : stringBody [] q with
    | none => rfl
    | some read =>
      obtain ⟨piece, rfl, hpiece⟩ := stringBody_piece hbody
      -- The closing quote of the string that was read lies within the open string.
      have hfront : piece ++ ['"'] <+: s.flatMap writeChar :=
        (List.prefix_append_right_inj piece).2 (by simp) |>.trans hq
      obtain ⟨mode, hafter, hmode⟩ := after_cut_quotable (quotable_writeChars s) hfront 0
      rw [Scan.after_append, Scan.after_quotable hpiece] at hafter
      rcases hmode with rfl | rfl <;> cases hafter
  right
  rw [tokens_cons rfl, next, hnone]
  rfl

/-- More fuel changes nothing but the fault of having had too little. -/
theorem reading_succ (fuel : Nat) :
    (∀ depth ts, value fuel depth ts = .error .malformedText ∨
      value (fuel + 1) depth ts = value fuel depth ts) ∧
    (∀ depth past ts, items fuel depth past ts = .error .malformedText ∨
      items (fuel + 1) depth past ts = items fuel depth past ts) ∧
    ∀ depth past ts, fields fuel depth past ts = .error .malformedText ∨
      fields (fuel + 1) depth past ts = fields fuel depth past ts := by
  induction fuel with
  | zero => exact ⟨fun _ _ => .inl rfl, fun _ _ _ => .inl rfl, fun _ _ _ => .inl rfl⟩
  | succ fuel ih =>
    obtain ⟨hvalue, hitems, hfields⟩ := ih
    refine ⟨?_, ?_, ?_⟩
    · intro depth ts
      cases ts with
      | nil => cases depth <;> exact .inl rfl
      | cons t ts =>
        cases t with
        | openList =>
          cases depth with
          | zero => exact .inr rfl
          | succ depth =>
            by_cases hclose : ∃ rest, ts = .closeList :: rest
            · obtain ⟨rest, rfl⟩ := hclose
              exact .inr rfl
            · rw [value_openList (by simpa using hclose), value_openList (by simpa using hclose)]
              exact hitems _ _ _
        | openRecord =>
          cases depth with
          | zero => exact .inr rfl
          | succ depth =>
            by_cases hclose : ∃ rest, ts = .closeRecord :: rest
            · obtain ⟨rest, rfl⟩ := hclose
              exact .inr rfl
            · rw [value_openRecord (by simpa using hclose),
                value_openRecord (by simpa using hclose)]
              exact hfields _ _ _
        | _ => cases depth <;> exact .inr rfl
    · intro depth past ts
      rw [items, items]
      rcases hvalue depth ts with h | h
      · rw [h]
        exact .inl rfl
      · rw [h]
        cases value fuel depth ts with
        | error f => exact .inr rfl
        | ok read =>
          obtain ⟨v, rest⟩ := read
          simp only [bind, Except.bind]
          split
          · exact .inr rfl
          · exact hitems _ _ _
          · exact .inl rfl
    · intro depth past ts
      by_cases hname : ∃ n rest, ts = .name n :: .colon :: rest
      · obtain ⟨n, rest, rfl⟩ := hname
        rw [fields, fields]
        rcases hvalue depth rest with h | h
        · rw [h]
          exact .inl rfl
        · rw [h]
          cases value fuel depth rest with
          | error f => exact .inr rfl
          | ok read =>
            obtain ⟨v, rest⟩ := read
            simp only [bind, Except.bind]
            split
            · exact .inr rfl
            · exact hfields _ _ _
            · exact .inl rfl
      · refine .inl ?_
        rw [fields]
        simpa using hname

/-- With any fuel, a value that can be stored is read or nothing is. Closing brackets that were cut
off are missing from the fuel as well, so it need not suffice. -/
theorem value_tokensOf {depth : Nat} {v : Value} (h : v.Storable depth) (fuel : Nat)
    (rest : List Token) :
    value fuel depth (tokensOf v ++ rest) = .error .malformedText ∨
      value fuel depth (tokensOf v ++ rest) = .ok (v.canonical, rest) := by
  by_cases hshort : value fuel depth (tokensOf v ++ rest) = .error .malformedText
  · exact .inl hshort
  · have hmore (more : Nat) : value (fuel + more) depth (tokensOf v ++ rest) =
        value fuel depth (tokensOf v ++ rest) := by
      induction more with
      | zero => rfl
      | succ more ih =>
        rcases (reading_succ (fuel + more)).1 depth (tokensOf v ++ rest) with hbad | heq
        · exact absurd (ih ▸ hbad) hshort
        · exact heq.trans ih
    right
    rw [← hmore (tokensOf v).length]
    exact reads_of_storable h _ rest (Nat.le_add_left _ _)

def Dangles (depth : Nat) (ts : List Token) : Prop :=
  ∀ fuel, value fuel depth ts = .error .malformedText ∨
    ∃ v rest, value fuel depth ts = .ok (v, rest) ∧ (rest = [] ∨ rest = [.malformed])

theorem dangles_of_isLoose {ts : List Token} (h : isLoose ts = true) (depth : Nat) :
    Dangles depth ts := by
  have hleaf (v : Value) (rest : List Token) (hrest : rest = [] ∨ rest = [.malformed]) :
      Dangles depth (.leaf v :: rest) := by
    intro fuel
    cases fuel with
    | zero => exact .inl rfl
    | succ fuel => exact .inr ⟨v, rest, by cases depth <;> rfl, hrest⟩
  have hnone {ts : List Token} (hts : ts = [] ∨ ts = [.malformed]) : Dangles depth ts := by
    intro fuel
    rcases hts with rfl | rfl <;> cases fuel <;> cases depth <;> exact .inl rfl
  unfold isLoose at h
  split at h
  · exact hnone (.inl rfl)
  · exact hnone (.inr rfl)
  · exact hleaf _ _ (.inl rfl)
  · exact hleaf _ _ (.inr rfl)
  · cases h

theorem items_of_dangles {depth : Nat} {ts : List Token} (h : Dangles depth ts) (fuel : Nat)
    (past : List Value) : items fuel depth past ts = .error .malformedText := by
  cases fuel with
  | zero => rfl
  | succ fuel =>
    rw [items]
    rcases h fuel with hbad | ⟨v, rest, hv, rfl | rfl⟩
    · rw [hbad]
      rfl
    · rw [hv]
      rfl
    · rw [hv]
      rfl

theorem field_of_dangles {depth : Nat} {ts : List Token} (h : Dangles depth ts) (fuel : Nat)
    (n : String) (past : List (String × Value)) :
    fields fuel depth past (.name n :: .colon :: ts) = .error .malformedText := by
  cases fuel with
  | zero => rfl
  | succ fuel =>
    rw [fields]
    rcases h fuel with hbad | ⟨v, rest, hv, rfl | rfl⟩
    · rw [hbad]
      rfl
    · rw [hv]
      rfl
    · rw [hv]
      rfl

/-- Whatever is left of a value, it is read up to its end, or it is not read. -/
def Tears (depth : Nat) (v : Value) : Prop :=
  ∀ p, p <+: write v → Dangles depth (tokens p)

theorem items_cut {depth : Nat} {vs : List Value} (hstorable : ∀ v ∈ vs, v.Storable depth)
    (h : ∀ v ∈ vs, Tears depth v) (hne : vs ≠ []) {p : List Char} (hp : p <+: writeItems vs)
    (fuel : Nat) (past : List Value) :
    items fuel depth past (tokens p) = .error .malformedText := by
  induction vs generalizing p fuel past with
  | nil => exact absurd rfl hne
  | cons v vs ih =>
    have hv : Tears depth v := h v List.mem_cons_self
    have hs : v.Storable depth := hstorable v List.mem_cons_self
    cases vs with
    | nil => exact items_of_dangles (hv p hp) fuel past
    | cons w vs =>
      rcases prefix_append_cases hp with hp | ⟨c, q, rfl, hq⟩
      · exact items_of_dangles (hv p hp) fuel past
      · obtain ⟨rfl, hrest⟩ := List.cons_prefix_cons.1 hq
        have hcomma : tokens (',' :: q) = .comma :: tokens q := tokens_cons rfl q
        rw [cuts_of_storable hs _ (closes_mark (by decide) _), hcomma]
        cases fuel with
        | zero => rfl
        | succ fuel =>
          rw [items]
          rcases value_tokensOf hs fuel (.comma :: tokens q) with hbad | hread
          · rw [hbad]
            rfl
          · rw [hread]
            exact ih (fun u hu => hstorable u (List.mem_cons_of_mem v hu))
              (fun u hu => h u (List.mem_cons_of_mem v hu)) (by simp) hrest fuel _

theorem fields_cut {depth : Nat} {fs : List (String × Value)}
    (hstorable : ∀ f ∈ fs, f.2.Storable depth) (h : ∀ f ∈ fs, Tears depth f.2) {p : List Char}
    (hp : p <+: writeFields fs) (fuel : Nat) (past : List (String × Value)) :
    fields fuel depth past (tokens p) = .error .malformedText := by
  have hnone {ts : List Token} (hts : ts = [] ∨ ts = [.malformed]) (fuel : Nat)
      (past : List (String × Value)) : fields fuel depth past ts = .error .malformedText := by
    rcases hts with rfl | rfl <;> cases fuel <;> rfl
  induction fs generalizing p fuel past with
  | nil =>
    rw [List.prefix_nil.1 hp]
    exact hnone (.inl rfl) fuel past
  | cons f fs ih =>
    obtain ⟨n, v⟩ := f
    have hv : Tears depth v := h (n, v) List.mem_cons_self
    have hs : v.Storable depth := hstorable (n, v) List.mem_cons_self
    have hsplit : ∃ more, writeFields ((n, v) :: fs) =
        writeText n.toList ++ ':' :: (write v ++ more) ∧
          (more = [] ∨ more = ',' :: writeFields fs) := by
      cases fs with
      | nil => exact ⟨[], by rw [List.append_nil]; rfl, .inl rfl⟩
      | cons g fs => exact ⟨_, rfl, .inr rfl⟩
    obtain ⟨more, htext, hmore⟩ := hsplit
    -- The cut is in the name, behind the colon, or in what follows the comma.
    rw [htext] at hp
    rcases prefix_append_cases hp with hp | ⟨c, q, rfl, hq⟩
    · by_cases hcut : p = writeText n.toList
      · rw [hcut, ← List.append_nil (writeText n.toList), tokens_writeText]
        cases fuel <;> rfl
      · exact hnone (tokens_cut_writeText hp hcut) fuel past
    · obtain ⟨rfl, hfield⟩ := List.cons_prefix_cons.1 hq
      have hcolon : tokens (':' :: q) = .colon :: tokens q := tokens_cons rfl q
      rw [tokens_writeText, hcolon]
      rcases prefix_append_cases hfield with hpart | ⟨c, r, rfl, hr⟩
      · exact field_of_dangles (hv q hpart) fuel n past
      · rcases hmore with rfl | rfl
        · cases List.prefix_nil.1 hr
        · obtain ⟨rfl, hrest⟩ := List.cons_prefix_cons.1 hr
          have hcomma : tokens (',' :: r) = .comma :: tokens r := tokens_cons rfl r
          rw [cuts_of_storable hs _ (closes_mark (by decide) _), hcomma]
          cases fuel with
          | zero => rfl
          | succ fuel =>
            rw [fields]
            rcases value_tokensOf hs fuel (.comma :: tokens r) with hbad | hread
            · rw [hbad]
              rfl
            · rw [hread]
              exact ih (fun g hg => hstorable g (List.mem_cons_of_mem _ hg))
                (fun g hg => h g (List.mem_cons_of_mem _ hg)) hrest fuel _

theorem after_first {q : List Char} {t : Token} {rest : List Token} (h : tokens q = t :: rest)
    (ht : t ≠ .malformed) :
    ∃ p, p <+: q ∧ Scan.after ⟨.outside, 0⟩ p = ⟨.outside, t.weight⟩ := by
  induction q with
  | nil => cases h
  | cons c q ih =>
    cases hspace : isSpace c with
    | true =>
      rw [tokens_space hspace] at h
      obtain ⟨p, hp, hafter⟩ := ih h
      refine ⟨c :: p, List.cons_prefix_cons.2 ⟨rfl, hp⟩, ?_⟩
      rw [Scan.after_cons, (Scan.step_unmarked (isMark_of_isSpace hspace) 0).1, hafter]
    | false =>
      rw [tokens_cons hspace] at h
      obtain ⟨rfl, -⟩ := List.cons.inj h
      rcases next_covers c q with hbad | ⟨piece, htext, hcovers⟩
      · exact absurd (by rw [hbad]) ht
      · exact ⟨piece, htext ▸ List.prefix_append _ _, by simpa using hcovers.after 0⟩

/-- The first token of a part of paired text closes nothing. -/
theorem weight_first {text q : List Char} (h : Paired text) (hq : q <+: text) {t : Token}
    {rest : List Token} (htokens : tokens q = t :: rest) : 0 ≤ t.weight := by
  by_cases ht : t = .malformed
  · rw [ht]
    decide
  · obtain ⟨p, hp, hafter⟩ := after_first htokens ht
    have hrises := h.rises 0 p (hp.trans hq)
    rwa [hafter] at hrises

theorem value_cut_list {depth : Nat} {vs : List Value} (hstorable : ∀ v ∈ vs, v.Storable depth)
    (h : ∀ v ∈ vs, Tears depth v) {p : List Char} (hp : p <+: write (.list vs))
    (hcut : p ≠ write (.list vs)) (fuel : Nat) :
    value fuel (depth + 1) (tokens p) = .error .malformedText := by
  cases fuel with
  | zero => rfl
  | succ fuel =>
    rcases List.prefix_cons_iff.1 hp with rfl | ⟨q, rfl, hq⟩
    · rfl
    have hq : q <+: writeItems vs :=
      (List.prefix_concat_iff.1 hq).resolve_left fun h => hcut (by rw [h]; rfl)
    have hopen : ∀ rest, tokens q ≠ .closeList :: rest := fun rest htokens =>
      absurd (weight_first (paired_writeItems vs) hq htokens) (by decide)
    rw [tokens_cons rfl]
    show value (fuel + 1) (depth + 1) (.openList :: tokens q) = _
    rw [value_openList hopen]
    by_cases hvs : vs = []
    · subst hvs
      rw [List.prefix_nil.1 hq]
      exact items_of_dangles (dangles_of_isLoose rfl depth) fuel []
    · exact items_cut hstorable h hvs hq fuel []

theorem value_cut_record {depth : Nat} {fs : List (String × Value)}
    (hstorable : ∀ f ∈ fs, f.2.Storable depth) (h : ∀ f ∈ fs, Tears depth f.2) {p : List Char}
    (hp : p <+: write (.record fs)) (hcut : p ≠ write (.record fs)) (fuel : Nat) :
    value fuel (depth + 1) (tokens p) = .error .malformedText := by
  cases fuel with
  | zero => rfl
  | succ fuel =>
    rcases List.prefix_cons_iff.1 hp with rfl | ⟨q, rfl, hq⟩
    · rfl
    have hq : q <+: writeFields fs :=
      (List.prefix_concat_iff.1 hq).resolve_left fun h => hcut (by rw [h]; rfl)
    have hopen : ∀ rest, tokens q ≠ .closeRecord :: rest := fun rest htokens =>
      absurd (weight_first (paired_writeFields fs) hq htokens) (by decide)
    rw [tokens_cons rfl]
    show value (fuel + 1) (depth + 1) (.openRecord :: tokens q) = _
    rw [value_openRecord hopen]
    exact fields_cut hstorable h hq fuel []

theorem tears_of_storable {depth : Nat} {v : Value} (h : v.Storable depth) : Tears depth v := by
  have hwhole {depth : Nat} {v : Value} (h : v.Storable depth) :
      Dangles depth (tokens (write v)) := by
    intro fuel
    have htokens := cuts_of_storable h [] closes_nil
    rw [List.append_nil] at htokens
    rw [htokens]
    exact (value_tokensOf h fuel []).imp_right fun hread => ⟨_, _, hread, .inl rfl⟩
  induction h with
  | null depth => exact fun p hp => dangles_of_isLoose (isLoose_word (by decide) hp) depth
  | bool depth b =>
    intro p hp
    cases b
    · exact dangles_of_isLoose (isLoose_word (by decide) hp) depth
    · exact dangles_of_isLoose (isLoose_word (by decide) hp) depth
  | int depth short => exact fun p hp => dangles_of_isLoose (isLoose_intText short hp) depth
  | float depth exact => exact fun p hp => dangles_of_isLoose (isLoose_writeFloat hp) depth
  | text depth s =>
    intro p hp
    by_cases hcut : p = writeText s.toList
    · rw [hcut]
      exact hwhole (.text depth s)
    · rcases tokens_cut_writeText hp hcut with hts | hts <;> rw [hts] <;>
        exact dangles_of_isLoose rfl depth
  | @list depth vs inside ih =>
    intro p hp
    by_cases hcut : p = write (.list vs)
    · rw [hcut]
      exact hwhole (.list inside)
    · exact fun fuel => .inl (value_cut_list inside ih hp hcut fuel)
  | @record depth fs names inside ih =>
    intro p hp
    by_cases hcut : p = write (.record fs)
    · rw [hcut]
      exact hwhole (.record names inside)
    · exact fun fuel => .inl (value_cut_record inside ih hp hcut fuel)

/-- No part of a record is JSON. -/
theorem read_cut {fs : List (String × Value)} (h : (Value.record fs).Storable depthLimit)
    {p : List Char} (hp : p <+: write (.record fs)) (hcut : p ≠ write (.record fs)) :
    read p = .error .malformedText := by
  have hvalue (fuel : Nat) : value fuel depthLimit (tokens p) = .error .malformedText := by
    generalize depthLimit = depth at h
    cases h with
    | record names inside =>
      exact value_cut_record inside (fun f hf => tears_of_storable (inside f hf)) hp hcut fuel
  rw [read, hvalue]
  rfl

end Json

end PlanarDrive
