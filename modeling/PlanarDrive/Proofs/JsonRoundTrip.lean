import PlanarDrive.Proofs.JsonStrings
import PlanarDrive.Proofs.JsonTokens
import PlanarDrive.Proofs.ShortestText

/-!
# Written values are read back

A written value is cut into the tokens it was written with, and these are put together to the value
again: only what is no number loses its bits. What follows a value must not continue a number.
-/

namespace PlanarDrive

namespace Json

open Decimal

mutual

def tokensOf : Value → List Token
  | .text s => [.name s]
  | .list items => .openList :: (itemTokens items ++ [.closeList])
  | .record fields => .openRecord :: (fieldTokens fields ++ [.closeRecord])
  | v => [.leaf v.canonical]

def itemTokens : List Value → List Token
  | [] => []
  | [v] => tokensOf v
  | v :: rest => tokensOf v ++ .comma :: itemTokens rest

def fieldTokens : List (String × Value) → List Token
  | [] => []
  | [(n, v)] => .name n :: .colon :: tokensOf v
  | (n, v) :: rest => .name n :: .colon :: (tokensOf v ++ .comma :: fieldTokens rest)

end

theorem isSpace_of_isDigit {c : Char} (h : isDigit c = true) : isSpace c = false :=
  forall_digit (P := fun c => isSpace c = false) (by decide) h

theorem next_of_isDigit {c : Char} (h : isDigit c = true) (rest : List Char) :
    next c rest = number false (c :: rest) := by
  unfold next
  split
  case h_9 => rw [if_pos h]
  all_goals cases h

theorem next_minus {c : Char} (h : isDigit c = true) (rest : List Char) :
    next '-' (c :: rest) = number true (c :: rest) := by
  have hword : word? "Infinity".toList (c :: rest) = none := by
    refine if_neg fun hfront => ?_
    have hI : 'I' = c := (List.cons_prefix_cons.1 (List.isPrefixOf_iff_prefix.1 hfront)).1
    subst hI
    cases h
  simp only [next, hword]

/-- The text of a number is one token. -/
theorem tokens_number {negative : Bool} {text rest : List Char} {t : Token}
    (hdigits : ∃ c tail, text = c :: tail ∧ isDigit c = true)
    (h : number negative (text ++ rest) = (t, rest)) :
    tokens (signedText negative text ++ rest) = t :: tokens rest := by
  obtain ⟨c, tail, rfl, hc⟩ := hdigits
  rw [List.cons_append] at h
  cases negative with
  | false =>
    show tokens (c :: (tail ++ rest)) = _
    rw [tokens_cons (isSpace_of_isDigit hc), next_of_isDigit hc, h]
  | true =>
    show tokens ('-' :: c :: (tail ++ rest)) = _
    rw [tokens_cons rfl, next_minus hc, h]

theorem number_digits (negative : Bool) {ds rest : List Char} (hds : AllDigits ds)
    (hlead : NoLeadingZero ds) (hshort : ds.length ≤ digitLimit) (hrest : Closes rest) :
    number negative (ds ++ rest) =
      (.leaf (.int (if negative then -(ofDigits ds : Int) else ofDigits ds)), rest) := by
  have hpart : fractionPart rest = ([], rest) :=
    fractionPart_text (allDigits_zeros 0) fun c hc => ⟨(hrest c hc).1, (hrest c hc).2.1⟩
  have hexponent : exponentPart rest = (none, rest) := by
    simpa using ExponentText.absent.part hrest
  have hlong : ¬digitLimit < ds.length := by omega
  have hne := hlead.ne_nil
  simp [number, wholePart_text hds hlead fun c hc => (hrest c hc).1, hpart, hexponent, hne, hlong]

theorem tokens_int {n : Int} (hshort : (digits n.natAbs).length ≤ digitLimit) {rest : List Char}
    (hrest : Closes rest) : tokens (Value.intText n ++ rest) = .leaf (.int n) :: tokens rest := by
  have hds := allDigits_digits n.natAbs
  obtain ⟨c, tail, htext⟩ := List.exists_cons_of_ne_nil (digits_ne_nil n.natAbs)
  have hfirst : ∃ c tail, digits n.natAbs = c :: tail ∧ isDigit c = true :=
    ⟨c, tail, htext, hds c (by rw [htext]; exact List.mem_cons_self)⟩
  have htokens (negative : Bool) :=
    tokens_number hfirst (number_digits negative hds (noLeadingZero_digits _) hshort hrest)
  simp only [ofDigits_digits] at htokens
  by_cases hn : n < 0
  · have hvalue : (-(n.natAbs : Int)) = n := by omega
    rw [Value.intText, if_pos hn]
    simpa only [signedText, if_true, hvalue] using htokens true
  · have hvalue : (n.natAbs : Int) = n := by omega
    rw [Value.intText, if_neg hn]
    simpa only [signedText, Bool.false_eq_true, if_false, hvalue] using htokens false

theorem tokens_float (x : Binary64) {rest : List Char} (hrest : Closes rest) :
    tokens (writeFloat x ++ rest) = .leaf (.float x.canonical) :: tokens rest := by
  unfold writeFloat
  split
  · next hnan =>
    rw [Binary64.canonical_of_isNaN hnan]
    exact tokens_cons rfl _
  · next hnan =>
    have hnumber : x.isNaN = false := by simpa using hnan
    rw [Binary64.canonical_of_not_isNaN hnumber]
    split
    · next hinf =>
      rcases Binary64.eq_infinity_of_isInfinite hinf with rfl | rfl
      · exact tokens_cons rfl _
      · exact tokens_cons rfl _
    · next hinf =>
      have hfinite : x.isInfinite = false := by simpa using hinf
      obtain ⟨s, text, hspells, htext, -⟩ := exact_spells hnumber hfinite
      have hvalue : s.value = x := by
        have hread := Binary64.readFloat_exact hnumber hfinite
        rw [htext, hspells.readFloat] at hread
        exact Option.some.inj hread
      rw [htext, tokens_number hspells.first (hspells.number hrest), hvalue]

/-- Cut out of what follows, the value gives its own tokens. -/
def Cuts (v : Value) : Prop :=
  ∀ rest, Closes rest → tokens (write v ++ rest) = tokensOf v ++ tokens rest

theorem closes_mark {c : Char} (h : isDigit c = false ∧ c ≠ '.' ∧ c ≠ 'e' ∧ c ≠ 'E')
    (rest : List Char) : Closes (c :: rest) := by
  intro d hd
  cases Option.mem_some.1 hd
  exact h

theorem tokens_writeText (s : String) (rest : List Char) :
    tokens (writeText s.toList ++ rest) = .name s :: tokens rest := by
  have hbody : stringBody [] (s.toList.flatMap writeChar ++ '"' :: rest) =
      some (s.toList, rest) := stringBody_writeText [] s.toList rest
  rw [writeText, List.cons_append, List.append_assoc]
  show tokens ('"' :: (s.toList.flatMap writeChar ++ '"' :: rest)) = _
  rw [tokens_cons rfl, next, hbody]
  simp

theorem tokens_writeItems {items : List Value} (h : ∀ v ∈ items, Cuts v) (rest : List Char) :
    tokens (writeItems items ++ ']' :: rest) = itemTokens items ++ .closeList :: tokens rest := by
  have hclose : tokens (']' :: rest) = .closeList :: tokens rest := tokens_cons rfl rest
  induction items with
  | nil => exact hclose
  | cons v items ih =>
    have hv : Cuts v := h v List.mem_cons_self
    cases items with
    | nil =>
      rw [writeItems, itemTokens, hv _ (closes_mark (by decide) _), hclose]
    | cons w items =>
      have hcomma (text : List Char) : tokens (',' :: text) = .comma :: tokens text :=
        tokens_cons rfl text
      rw [writeItems, itemTokens, List.append_assoc, List.cons_append,
        hv _ (closes_mark (by decide) _), hcomma, ih fun u hu => h u (List.mem_cons_of_mem v hu)]
      · simp
      · simp
      · simp

theorem tokens_writeFields {fields : List (String × Value)} (h : ∀ f ∈ fields, Cuts f.2)
    (rest : List Char) : tokens (writeFields fields ++ '\x7d' :: rest) =
      fieldTokens fields ++ .closeRecord :: tokens rest := by
  have hclose : tokens ('\x7d' :: rest) = .closeRecord :: tokens rest := tokens_cons rfl rest
  have hcolon (text : List Char) : tokens (':' :: text) = .colon :: tokens text :=
    tokens_cons rfl text
  induction fields with
  | nil => exact hclose
  | cons f fields ih =>
    obtain ⟨n, v⟩ := f
    have hv : Cuts v := h (n, v) List.mem_cons_self
    cases fields with
    | nil =>
      rw [writeFields, fieldTokens, List.append_assoc, tokens_writeText, List.cons_append, hcolon,
        hv _ (closes_mark (by decide) _), hclose]
      rfl
    | cons g fields =>
      have hcomma (text : List Char) : tokens (',' :: text) = .comma :: tokens text :=
        tokens_cons rfl text
      rw [writeFields, fieldTokens, List.append_assoc, tokens_writeText, List.cons_append, hcolon,
        List.append_assoc, List.cons_append, hv _ (closes_mark (by decide) _), hcomma,
        ih fun u hu => h u (List.mem_cons_of_mem _ hu)]
      · simp
      · simp
      · simp

/-- A value that can be stored is cut into its tokens. -/
theorem cuts_of_storable {depth : Nat} {v : Value} (h : v.Storable depth) : Cuts v := by
  induction h with
  | null => exact fun rest _ => tokens_cons rfl ('u' :: 'l' :: 'l' :: rest)
  | bool depth b =>
    intro rest _
    cases b
    · exact tokens_cons rfl ('a' :: 'l' :: 's' :: 'e' :: rest)
    · exact tokens_cons rfl ('r' :: 'u' :: 'e' :: rest)
  | int depth short => exact fun rest hrest => tokens_int short hrest
  | float depth x => exact fun rest hrest => tokens_float x hrest
  | text depth s => exact fun rest _ => tokens_writeText s rest
  | @list depth items inside ih =>
    intro rest _
    have htext : write (.list items) ++ rest = '[' :: (writeItems items ++ ']' :: rest) := by
      simp [write]
    rw [htext, tokens_cons rfl]
    show .openList :: tokens (writeItems items ++ ']' :: rest) = _
    rw [tokens_writeItems ih, tokensOf]
    simp
  | @record depth fields names inside ih =>
    intro rest _
    have htext : write (.record fields) ++ rest =
        '\x7b' :: (writeFields fields ++ '\x7d' :: rest) := by
      simp [write]
    rw [htext, tokens_cons rfl]
    show .openRecord :: tokens (writeFields fields ++ '\x7d' :: rest) = _
    rw [tokens_writeFields ih, tokensOf]
    simp

/-- With enough fuel the tokens of the value are read as the value. -/
def Reads (depth : Nat) (v : Value) : Prop :=
  ∀ fuel rest, (tokensOf v).length ≤ fuel →
    value fuel depth (tokensOf v ++ rest) = .ok (v.canonical, rest)

/-- No value begins with a closing bracket. -/
theorem tokensOf_head (v : Value) : ∃ t rest, tokensOf v = t :: rest ∧ t ≠ .closeList := by
  cases v <;> exact ⟨_, _, rfl, by simp⟩

theorem value_openList {fuel depth : Nat} {ts : List Token}
    (h : ∀ rest, ts ≠ .closeList :: rest) :
    value (fuel + 1) (depth + 1) (.openList :: ts) = items fuel depth [] ts := by
  rw [value]
  exact h

theorem value_openRecord {fuel depth : Nat} {ts : List Token}
    (h : ∀ rest, ts ≠ .closeRecord :: rest) :
    value (fuel + 1) (depth + 1) (.openRecord :: ts) = fields fuel depth [] ts := by
  rw [value]
  exact h

theorem items_itemTokens {depth : Nat} {vs : List Value} (h : ∀ v ∈ vs, Reads depth v)
    (hne : vs ≠ []) {fuel : Nat} (hfuel : (itemTokens vs).length < fuel) (past : List Value)
    (rest : List Token) : items fuel depth past (itemTokens vs ++ .closeList :: rest) =
      .ok (.list (past.reverse ++ Value.canonicalItems vs), rest) := by
  induction vs generalizing past fuel with
  | nil => exact absurd rfl hne
  | cons v vs ih =>
    obtain ⟨fuel, rfl⟩ := Nat.exists_eq_add_one_of_ne_zero (Nat.ne_of_gt (Nat.lt_of_le_of_lt
      (Nat.zero_le _) hfuel))
    have hv : Reads depth v := h v List.mem_cons_self
    cases vs with
    | nil =>
      rw [itemTokens] at hfuel ⊢
      rw [items, hv _ _ (by omega)]
      simp [bind, Except.bind, Value.canonicalItems]
    | cons w vs =>
      rw [itemTokens, List.length_append, List.length_cons] at hfuel
      rw [itemTokens, List.append_assoc, items, hv _ _ (by omega)]
      simp only [bind, Except.bind, List.cons_append]
      rw [ih (fun u hu => h u (List.mem_cons_of_mem v hu)) (by simp) (by omega)]
      simp [Value.canonicalItems]
      · simp
      · simp

theorem fields_fieldTokens {depth : Nat} {fs : List (String × Value)}
    (h : ∀ f ∈ fs, Reads depth f.2) (hne : fs ≠ []) {fuel : Nat}
    (hfuel : (fieldTokens fs).length < fuel) (past : List (String × Value)) (rest : List Token) :
    fields fuel depth past (fieldTokens fs ++ .closeRecord :: rest) =
      .ok (Value.ofFields (past.reverse ++ Value.canonicalFields fs), rest) := by
  induction fs generalizing past fuel with
  | nil => exact absurd rfl hne
  | cons f fs ih =>
    obtain ⟨n, v⟩ := f
    obtain ⟨fuel, rfl⟩ := Nat.exists_eq_add_one_of_ne_zero (Nat.ne_of_gt (Nat.lt_of_le_of_lt
      (Nat.zero_le _) hfuel))
    have hv : Reads depth v := h (n, v) List.mem_cons_self
    cases fs with
    | nil =>
      rw [fieldTokens, List.length_cons, List.length_cons] at hfuel
      rw [fieldTokens, List.cons_append, List.cons_append, fields, hv _ _ (by omega)]
      simp [bind, Except.bind, Value.canonicalFields]
    | cons g fs =>
      rw [fieldTokens, List.length_cons, List.length_cons, List.length_append,
        List.length_cons] at hfuel
      rw [fieldTokens, List.cons_append, List.cons_append, List.append_assoc, fields,
        hv _ _ (by omega)]
      simp only [bind, Except.bind, List.cons_append]
      rw [ih (fun u hu => h u (List.mem_cons_of_mem _ hu)) (by simp) (by omega)]
      simp [Value.canonicalFields]
      · simp
      · simp

theorem itemTokens_head {vs : List Value} (hne : vs ≠ []) (more rest : List Token) :
    itemTokens vs ++ more ≠ .closeList :: rest := by
  cases vs with
  | nil => exact absurd rfl hne
  | cons v vs =>
    obtain ⟨t, ts, hv, ht⟩ := tokensOf_head v
    cases vs with
    | nil => simp [itemTokens, hv, ht]
    | cons w vs => simp [itemTokens, hv, ht]

theorem fieldTokens_head {fs : List (String × Value)} (hne : fs ≠ []) (more rest : List Token) :
    fieldTokens fs ++ more ≠ .closeRecord :: rest := by
  cases fs with
  | nil => exact absurd rfl hne
  | cons f fs => cases fs <;> simp [fieldTokens]

/-- The tokens of a value that can be stored are read as the value. -/
theorem reads_of_storable {depth : Nat} {v : Value} (h : v.Storable depth) : Reads depth v := by
  have hleaf (v : Value) (depth : Nat) (hv : tokensOf v = [.leaf v.canonical]) :
      Reads depth v := by
    intro fuel rest hfuel
    rw [hv] at hfuel ⊢
    cases fuel with
    | zero => exact absurd hfuel (by simp)
    | succ fuel => cases depth <;> rfl
  induction h with
  | null depth => exact hleaf _ depth rfl
  | bool depth b => exact hleaf _ depth rfl
  | int depth short => exact hleaf _ depth rfl
  | float depth x => exact hleaf _ depth rfl
  | text depth s =>
    intro fuel rest hfuel
    cases fuel with
    | zero => exact absurd hfuel (by simp [tokensOf])
    | succ fuel => cases depth <;> rfl
  | @list depth vs inside ih =>
    intro fuel rest hfuel
    have hlength : (tokensOf (.list vs)).length = (itemTokens vs).length + 2 := by simp [tokensOf]
    obtain ⟨fuel, rfl⟩ := Nat.exists_eq_add_of_le' (Nat.le_trans (by omega : 1 ≤ _) hfuel)
    have htokens : tokensOf (.list vs) ++ rest =
        .openList :: (itemTokens vs ++ .closeList :: rest) := by simp [tokensOf]
    rw [htokens]
    by_cases hvs : vs = []
    · subst hvs
      rfl
    · rw [value_openList (itemTokens_head hvs _), items_itemTokens ih hvs (by omega)]
      rfl
  | @record depth fs names inside ih =>
    intro fuel rest hfuel
    have hlength : (tokensOf (.record fs)).length = (fieldTokens fs).length + 2 := by
      simp [tokensOf]
    obtain ⟨fuel, rfl⟩ := Nat.exists_eq_add_of_le' (Nat.le_trans (by omega : 1 ≤ _) hfuel)
    have htokens : tokensOf (.record fs) ++ rest =
        .openRecord :: (fieldTokens fs ++ .closeRecord :: rest) := by simp [tokensOf]
    rw [htokens]
    by_cases hfs : fs = []
    · subst hfs
      rfl
    · rw [value_openRecord (fieldTokens_head hfs _), fields_fieldTokens ih hfs (by omega),
        List.reverse_nil, List.nil_append,
        Value.ofFields_of_nodup (Value.canonicalFields_nodup names)]
      rfl

/-- What was written is read as it was, but for the bits of what is no number. -/
theorem read_write {v : Value} (h : v.Storable depthLimit) : read (write v) = .ok v.canonical := by
  have htokens : tokens (write v) = tokensOf v := by
    have hcut := cuts_of_storable h [] closes_nil
    rwa [List.append_nil, tokens_nil, List.append_nil] at hcut
  have hvalue := reads_of_storable h ((tokensOf v).length + 1) [] (Nat.le_succ _)
  rw [List.append_nil] at hvalue
  unfold read
  rw [htokens]
  simp [hvalue, bind, Except.bind]

theorem isPlain_of_isNumberChar {c : Char} (h : IsNumberChar c) : IsPlain c :=
  forall_numberChar (P := IsPlain) (by decide) (by decide) h

theorem printable_writeFloat (x : Binary64) : Printable (writeFloat x) := by
  unfold writeFloat
  split
  · decide
  · next hnan =>
    split
    · split <;> decide
    · next hinf =>
      obtain ⟨s, text, hspells, htext, -⟩ :=
        exact_spells (by simpa using hnan) (by simpa using hinf)
      rw [htext]
      exact fun c hc => isPlain_of_isNumberChar (hspells.signed_numberChars c hc)

theorem printable_intText (n : Int) : Printable (Value.intText n) := by
  have hdigits : Printable (digits n.natAbs) := fun c hc =>
    isPlain_of_isNumberChar ((allDigits_digits _).numberChars c hc)
  unfold Value.intText
  split
  · intro c hc
    rcases List.mem_cons.1 hc with rfl | hc
    · decide
    · exact hdigits c hc
  · exact hdigits

theorem Printable.append {a b : List Char} (ha : Printable a) (hb : Printable b) :
    Printable (a ++ b) :=
  fun c hc => (List.mem_append.1 hc).elim (ha c) (hb c)

theorem Printable.cons {c : Char} {b : List Char} (hc : IsPlain c) (hb : Printable b) :
    Printable (c :: b) :=
  List.forall_mem_cons.2 ⟨hc, hb⟩

mutual

/-- Everything is written with printable characters, whatever the strings hold. -/
theorem printable_write : ∀ v, Printable (write v)
  | .null => by decide
  | .bool b => by cases b <;> decide
  | .int n => printable_intText n
  | .float x => printable_writeFloat x
  | .text s => printable_writeText s.toList
  | .list items => .cons (by decide) (.append (printable_writeItems items) (by decide))
  | .record fields => .cons (by decide) (.append (printable_writeFields fields) (by decide))

theorem printable_writeItems : ∀ items, Printable (writeItems items)
  | [] => by decide
  | [v] => printable_write v
  | v :: w :: rest =>
    .append (printable_write v) (.cons (by decide) (printable_writeItems (w :: rest)))

theorem printable_writeFields : ∀ fields, Printable (writeFields fields)
  | [] => by decide
  | [(n, v)] => .append (printable_writeText n.toList) (.cons (by decide) (printable_write v))
  | (n, v) :: f :: rest =>
    .append (printable_writeText n.toList) (.cons (by decide)
      (.append (printable_write v) (.cons (by decide) (printable_writeFields (f :: rest)))))

end

end Json

end PlanarDrive
