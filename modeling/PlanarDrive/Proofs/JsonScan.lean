import PlanarDrive.Proofs.JsonRoundTrip

/-!
# Quotes and brackets in JSON text

A scan of a text only tells strings from what is outside of them, and counts how deep the text is
nested there. Text that is read ends where it began: outside of strings and not nested. What is left
of a record that was cut off is nested or inside a string, and no record that follows can mend it.
-/

namespace PlanarDrive

namespace Json

open Decimal

inductive Mode
  | outside
  | inside
  /-- After a backslash in a string. -/
  | escaped
  /-- After a backslash that stands in no string. -/
  | broken
  deriving DecidableEq

structure Scan where
  mode : Mode
  nesting : Int
  deriving DecidableEq

namespace Scan

def step (s : Scan) (c : Char) : Scan :=
  match s.mode with
  | .outside =>
    if c = '"' then { s with mode := .inside }
    else if c = '\\' then { s with mode := .broken }
    else if c = '[' ∨ c = '\x7b' then { s with nesting := s.nesting + 1 }
    else if c = ']' ∨ c = '\x7d' then { s with nesting := s.nesting - 1 }
    else s
  | .inside =>
    if c = '"' then { s with mode := .outside }
    else if c = '\\' then { s with mode := .escaped }
    else s
  | .escaped => { s with mode := .inside }
  | .broken => s

def after (s : Scan) (text : List Char) : Scan :=
  text.foldl step s

@[simp] theorem after_nil (s : Scan) : s.after [] = s :=
  rfl

@[simp] theorem after_cons (s : Scan) (c : Char) (text : List Char) :
    s.after (c :: text) = (s.step c).after text :=
  rfl

@[simp] theorem after_append (s : Scan) (a b : List Char) : s.after (a ++ b) = (s.after a).after b :=
  List.foldl_append

theorem after_broken (n : Int) (text : List Char) : after ⟨.broken, n⟩ text = ⟨.broken, n⟩ := by
  induction text with
  | nil => rfl
  | cons c text ih => exact ih

theorem step_unmarked {c : Char} (h : isMark c = false) (n : Int) :
    step ⟨.outside, n⟩ c = ⟨.outside, n⟩ ∧ step ⟨.inside, n⟩ c = ⟨.inside, n⟩ := by
  simp only [isMark, Bool.or_eq_false_iff, beq_eq_false_iff_ne] at h
  simp [step, h]

theorem after_unmarked {piece : List Char} (h : Unmarked piece) (n : Int) :
    after ⟨.outside, n⟩ piece = ⟨.outside, n⟩ ∧ after ⟨.inside, n⟩ piece = ⟨.inside, n⟩ := by
  induction piece with
  | nil => exact ⟨rfl, rfl⟩
  | cons c piece ih =>
    obtain ⟨hout, hin⟩ := step_unmarked (h c List.mem_cons_self) n
    obtain ⟨iout, iin⟩ := ih fun d hd => h d (List.mem_cons_of_mem c hd)
    rw [after_cons, after_cons, hout, hin]
    exact ⟨iout, iin⟩

theorem after_quotable {body : List Char} (h : Quotable body) (n : Int) :
    after ⟨.inside, n⟩ body = ⟨.inside, n⟩ := by
  induction h with
  | nil => rfl
  | @plain c rest hquote hslash hrest ih =>
    rw [after_cons, step]
    simpa [hquote, hslash] using ih
  | escape c hrest ih => exact ih

end Scan

def Token.weight : Token → Int
  | .openRecord | .openList => 1
  | .closeRecord | .closeList => -1
  | _ => 0

def weight : List Token → Int
  | [] => 0
  | t :: ts => t.weight + weight ts

theorem weight_append (ts us : List Token) : weight (ts ++ us) = weight ts + weight us := by
  induction ts with
  | nil => exact (Int.zero_add _).symm
  | cons t ts ih => rw [List.cons_append, weight, weight, ih, Int.add_assoc]

theorem isMark_of_isSpace {c : Char} (h : isSpace c = true) : isMark c = false := by
  simp only [isSpace, Bool.or_eq_true, beq_iff_eq] at h
  rcases h with ((rfl | rfl) | rfl) | rfl <;> rfl

theorem Token.Covers.after {t : Token} {piece : List Char} (h : t.Covers piece) (n : Int) :
    Scan.after ⟨.outside, n⟩ piece = ⟨.outside, n + t.weight⟩ := by
  cases h with
  | leaf v hne hpiece => simpa [Token.weight] using (Scan.after_unmarked hpiece n).1
  | longInteger hsign hwhole hlong htail =>
    simpa [Token.weight] using
      (Scan.after_unmarked (hsign.append ((unmarked_digits hwhole).append htail)) n).1
  | name s hbody =>
    have hopen : Scan.step ⟨.outside, n⟩ '"' = ⟨.inside, n⟩ := rfl
    rw [Scan.after_cons, hopen, Scan.after_append, Scan.after_quotable hbody]
    simp [Token.weight, Scan.step]
  | _ => simp [Token.weight, Scan.step, Int.sub_eq_add_neg]

/-- Text without a place where no token begins ends outside of strings. -/
theorem after_of_tokens {text : List Char} (h : Token.malformed ∉ tokens text) (n : Int) :
    Scan.after ⟨.outside, n⟩ text = ⟨.outside, n + weight (tokens text)⟩ := by
  -- A token covers any number of characters, so the induction is on the length of the text.
  induction hlen : text.length using Nat.strongRecOn generalizing text n with
  | ind k ih =>
    subst hlen
    cases text with
    | nil => simp [tokens_nil, weight]
    | cons c rest =>
      cases hspace : isSpace c with
      | true =>
        have hmark : isMark c = false := isMark_of_isSpace hspace
        rw [tokens_space hspace] at h ⊢
        rw [Scan.after_cons, (Scan.step_unmarked hmark n).1, ih _ (by simp) h n rfl]
      | false =>
        rw [tokens_cons hspace, List.mem_cons, not_or] at h
        rcases next_covers c rest with hbad | ⟨piece, htext, hcovers⟩
        · exact absurd (by rw [hbad]) h.1
        · have hlength := length_next_le c rest
          rw [tokens_cons hspace, htext, Scan.after_append, hcovers.after,
            ih _ (by simp; omega) h.2 _ rfl]
          simp [weight, Int.add_assoc]

/-- What is read off the front of some tokens changes the nesting by `w`. -/
def Uses (ts rest : List Token) (w : Int) : Prop :=
  ∃ used, ts = used ++ rest ∧ weight used = w ∧ Token.malformed ∉ used

theorem Uses.token {t : Token} (h : t ≠ .malformed) (rest : List Token) :
    Uses (t :: rest) rest t.weight :=
  ⟨[t], rfl, by simp [weight], by simpa using h.symm⟩

theorem Uses.trans {ts mid rest : List Token} {a b : Int} (h : Uses ts mid a)
    (hmore : Uses mid rest b) : Uses ts rest (a + b) := by
  obtain ⟨used, rfl, rfl, hused⟩ := h
  obtain ⟨more, rfl, rfl, hm⟩ := hmore
  exact ⟨used ++ more, by simp, weight_append used more, by simp [hused, hm]⟩

theorem Uses.item {ts mid after rest : List Token} {t : Token} {w : Int} (h : Uses ts mid 0)
    (hmid : mid = t :: after) (ht : t ≠ .malformed) (hafter : Uses after rest w) :
    Uses ts rest (t.weight + w) := by
  rw [← Int.zero_add (t.weight + w)]
  exact h.trans (hmid ▸ (Uses.token ht after).trans hafter)

theorem Uses.refl (rest : List Token) : Uses rest rest 0 :=
  ⟨[], rfl, rfl, by simp⟩

/-- A value takes as many closing brackets as opening ones, and the rest of a list or a record one
more. -/
theorem uses_of_reading (fuel : Nat) :
    (∀ depth ts v rest, value fuel depth ts = .ok (v, rest) → Uses ts rest 0) ∧
    (∀ depth past ts v rest, items fuel depth past ts = .ok (v, rest) → Uses ts rest (-1)) ∧
    ∀ depth past ts v rest, fields fuel depth past ts = .ok (v, rest) → Uses ts rest (-1) := by
  induction fuel with
  | zero => refine ⟨?_, ?_, ?_⟩ <;> intros <;> simp_all [value, items, fields]
  | succ fuel ih =>
    obtain ⟨hvalue, hitems, hfields⟩ := ih
    refine ⟨?_, ?_, ?_⟩
    · intro depth ts v rest h
      unfold value at h
      split at h
      · cases h; exact .token (by simp) _
      · cases h; exact .token (by simp) _
      · cases h
      · cases h
      · cases h; exact (Uses.token (by simp) _).trans (.token (by simp) _)
      · exact (Uses.token (by simp) _).trans (hitems _ _ _ _ _ h)
      · cases h; exact (Uses.token (by simp) _).trans (.token (by simp) _)
      · exact (Uses.token (by simp) _).trans (hfields _ _ _ _ _ h)
      · cases h
      · cases h
    · intro depth past ts v rest h
      unfold items at h
      cases hw : value fuel depth ts with
      | error f => rw [hw] at h; cases h
      | ok read =>
        rw [hw] at h
        have hitem := hvalue _ _ _ _ hw
        dsimp only [bind, Except.bind] at h
        split at h
        · next hmid => cases h; exact hitem.item hmid (by simp) (.refl _)
        · next hmid => exact hitem.item hmid (by simp) (hitems _ _ _ _ _ h)
        · cases h
    · intro depth past ts v rest h
      unfold fields at h
      split at h
      · next n more =>
        have hname : Uses (.name n :: .colon :: more) more 0 :=
          (Uses.token (t := .name n) (by simp) _).trans (.token (t := .colon) (by simp) _)
        cases hw : value fuel depth more with
        | error f => rw [hw] at h; cases h
        | ok read =>
          rw [hw] at h
          have hitem := hname.trans (hvalue _ _ _ _ hw)
          dsimp only [bind, Except.bind] at h
          split at h
          · next hmid => cases h; exact hitem.item hmid (by simp) (.refl _)
          · next hmid => exact hitem.item hmid (by simp) (hfields _ _ _ _ _ h)
          · cases h
      · cases h

/-- Text that is read ends where it began. -/
theorem after_of_read {text : List Char} {v : Value} (h : read text = .ok v) :
    Scan.after ⟨.outside, 0⟩ text = ⟨.outside, 0⟩ := by
  unfold read at h
  cases hw : value ((tokens text).length + 1) depthLimit (tokens text) with
  | error f => simp only [hw] at h; cases h
  | ok result =>
    obtain ⟨w, rest⟩ := result
    simp only [hw, bind, Except.bind, List.isEmpty_iff] at h
    split at h
    · next hrest =>
      obtain ⟨used, hused, hweight, hwell⟩ := (uses_of_reading _).1 _ _ _ _ hw
      rw [hrest, List.append_nil] at hused
      rw [after_of_tokens (hused ▸ hwell), hused, hweight]
      rfl
    · cases h

/-- Quotes and brackets of the text come in pairs. -/
structure Paired (text : List Char) : Prop where
  ends : ∀ n, Scan.after ⟨.outside, n⟩ text = ⟨.outside, n⟩
  /-- No beginning of the text ends less nested than it began. -/
  rises : ∀ n p, p <+: text → n ≤ (Scan.after ⟨.outside, n⟩ p).nesting
  /-- After an open string the text leaves a string open. -/
  flips : ∀ n, ∃ mode k, Scan.after ⟨.inside, n⟩ text = ⟨mode, k⟩ ∧ (mode = .inside ∨ mode = .broken)

theorem prefix_append_cases {p a b : List Char} (h : p <+: a ++ b) :
    p <+: a ∨ ∃ c q, p = a ++ c :: q ∧ c :: q <+: b := by
  rcases List.prefix_or_prefix_of_prefix h (List.prefix_append a b) with h' | ⟨q, rfl⟩
  · exact .inl h'
  · cases q with
    | nil => exact .inl (by simp)
    | cons c q => exact .inr ⟨c, q, rfl, (List.prefix_append_right_inj a).1 h⟩

theorem Paired.append {a b : List Char} (ha : Paired a) (hb : Paired b) : Paired (a ++ b) := by
  constructor
  · intro n
    rw [Scan.after_append, ha.ends, hb.ends]
  · intro n p hp
    rcases prefix_append_cases hp with hp | ⟨c, q, rfl, hq⟩
    · exact ha.rises n p hp
    · rw [Scan.after_append, ha.ends]
      exact hb.rises n (c :: q) hq
  · intro n
    obtain ⟨mode, k, hafter, rfl | rfl⟩ := ha.flips n
    · rw [Scan.after_append, hafter]
      exact hb.flips k
    · exact ⟨.broken, k, by rw [Scan.after_append, hafter, Scan.after_broken], .inr rfl⟩

theorem paired_of_unmarked {text : List Char} (h : Unmarked text) : Paired text := by
  refine ⟨fun n => (Scan.after_unmarked h n).1, fun n p hp => ?_, fun n =>
    ⟨.inside, n, (Scan.after_unmarked h n).2, .inl rfl⟩⟩
  have hcut : Unmarked p := fun c hc => h c (hp.subset hc)
  exact Int.le_of_eq (congrArg Scan.nesting (Scan.after_unmarked hcut n).1).symm

/-- Text between two brackets. -/
theorem Paired.between {body : List Char} (h : Paired body) {opening closing : Char}
    (hmarks : opening = '[' ∧ closing = ']' ∨ opening = '\x7b' ∧ closing = '\x7d') :
    Paired (opening :: (body ++ [closing])) := by
  have hopen (n : Int) : Scan.step ⟨.outside, n⟩ opening = ⟨.outside, n + 1⟩ ∧
      Scan.step ⟨.inside, n⟩ opening = ⟨.inside, n⟩ := by
    rcases hmarks with ⟨rfl, -⟩ | ⟨rfl, -⟩ <;> exact ⟨rfl, rfl⟩
  have hclose (n : Int) : Scan.step ⟨.outside, n + 1⟩ closing = ⟨.outside, n⟩ ∧
      Scan.step ⟨.inside, n⟩ closing = ⟨.inside, n⟩ := by
    rcases hmarks with ⟨-, rfl⟩ | ⟨-, rfl⟩ <;> simp [Scan.step]
  have hends (n : Int) : Scan.after ⟨.outside, n⟩ (opening :: (body ++ [closing])) =
      ⟨.outside, n⟩ := by
    rw [Scan.after_cons, (hopen n).1, Scan.after_append, h.ends, Scan.after_cons, (hclose n).1,
      Scan.after_nil]
  constructor
  · exact hends
  · intro n p hp
    rcases List.prefix_cons_iff.1 hp with rfl | ⟨q, rfl, hq⟩
    · exact Int.le_refl n
    · rcases List.prefix_concat_iff.1 hq with rfl | hq
      · exact Int.le_of_eq (congrArg Scan.nesting (hends n)).symm
      · rw [Scan.after_cons, (hopen n).1]
        exact Int.le_trans (by omega) (h.rises (n + 1) q hq)
  · intro n
    obtain ⟨mode, k, hafter, hmode⟩ := h.flips n
    rw [Scan.after_cons, (hopen n).2, Scan.after_append, hafter]
    rcases hmode with rfl | rfl
    · exact ⟨.inside, k, (hclose k).2, .inl rfl⟩
    · exact ⟨.broken, k, rfl, .inr rfl⟩

theorem quotable_writeChars (s : List Char) : Quotable (s.flatMap writeChar) := by
  obtain ⟨piece, htext, hpiece⟩ := stringBody_piece (stringBody_writeText [] s [])
  rwa [List.append_cancel_right htext]

/-- A string that is cut stays open. -/
theorem after_cut_quotable {body p : List Char} (h : Quotable body) (hp : p <+: body) (n : Int) :
    ∃ mode, Scan.after ⟨.inside, n⟩ p = ⟨mode, n⟩ ∧ (mode = .inside ∨ mode = .escaped) := by
  induction h generalizing p with
  | nil =>
    rw [List.prefix_nil.1 hp]
    exact ⟨_, rfl, .inl rfl⟩
  | @plain c rest hquote hslash hrest ih =>
    rcases List.prefix_cons_iff.1 hp with rfl | ⟨q, rfl, hq⟩
    · exact ⟨_, rfl, .inl rfl⟩
    · have hstep : Scan.step ⟨.inside, n⟩ c = ⟨.inside, n⟩ := by simp [Scan.step, hquote, hslash]
      rw [Scan.after_cons, hstep]
      exact ih hq
  | escape c hrest ih =>
    rcases List.prefix_cons_iff.1 hp with rfl | ⟨q, rfl, hq⟩
    · exact ⟨_, rfl, .inl rfl⟩
    · rcases List.prefix_cons_iff.1 hq with rfl | ⟨r, rfl, hr⟩
      · exact ⟨_, rfl, .inr rfl⟩
      · show ∃ mode, Scan.after ⟨.inside, n⟩ r = _ ∧ _
        exact ih hr

theorem writeChar_cases (c : Char) :
    (∃ tail, writeChar c = '\\' :: tail) ∨ writeChar c = [c] ∧ c ≠ '"' ∧ c ≠ '\\' := by
  unfold writeChar
  iterate 7
    split
    · exact .inl ⟨_, rfl⟩
  split
  · next hquote hslash _ _ _ _ _ _ => exact .inr ⟨rfl, hquote, hslash⟩
  · rcases codeUnits_cases c with ⟨n, -, hunits, -⟩ | ⟨high, -, low, -, hunits, -⟩ <;>
      exact .inl ⟨_, by rw [hunits]; rfl⟩

/-- Outside of strings an escape breaks the scan, and no other character of a string opens one. -/
theorem after_writeChars (s : List Char) (n : Int) : ∃ mode k,
    Scan.after ⟨.outside, n⟩ (s.flatMap writeChar) = ⟨mode, k⟩ ∧
      (mode = .outside ∨ mode = .broken) := by
  induction s generalizing n with
  | nil => exact ⟨_, n, rfl, .inl rfl⟩
  | cons c s ih =>
    rw [List.flatMap_cons, Scan.after_append]
    rcases writeChar_cases c with ⟨tail, htail⟩ | ⟨hplain, hquote, hslash⟩
    · have hbreak : Scan.after ⟨.outside, n⟩ (writeChar c) = ⟨.broken, n⟩ := by
        rw [htail]
        exact Scan.after_broken n tail
      rw [hbreak, Scan.after_broken]
      exact ⟨_, n, rfl, .inr rfl⟩
    · obtain ⟨k, hk⟩ : ∃ k, Scan.after ⟨.outside, n⟩ (writeChar c) = ⟨.outside, k⟩ := by
        rw [hplain, Scan.after_cons, Scan.after_nil, Scan.step]
        simp only [hquote, hslash, if_false]
        split_ifs <;> exact ⟨_, rfl⟩
      rw [hk]
      exact ih k

theorem paired_writeText (s : List Char) : Paired (writeText s) := by
  have hbody := quotable_writeChars s
  have hends (n : Int) : Scan.after ⟨.outside, n⟩ (writeText s) = ⟨.outside, n⟩ := by
    have hopen : Scan.step ⟨.outside, n⟩ '"' = ⟨.inside, n⟩ := rfl
    rw [writeText, Scan.after_cons, hopen, Scan.after_append, Scan.after_quotable hbody]
    rfl
  constructor
  · exact hends
  · intro n p hp
    rcases List.prefix_cons_iff.1 hp with rfl | ⟨q, rfl, hq⟩
    · exact Int.le_refl n
    · rcases List.prefix_concat_iff.1 hq with rfl | hq
      · exact Int.le_of_eq (congrArg Scan.nesting (hends n)).symm
      · obtain ⟨mode, hafter, -⟩ := after_cut_quotable hbody hq n
        exact Int.le_of_eq (congrArg Scan.nesting hafter).symm
  · intro n
    have hopen : Scan.step ⟨.inside, n⟩ '"' = ⟨.outside, n⟩ := rfl
    rw [writeText, Scan.after_cons, hopen, Scan.after_append]
    obtain ⟨mode, k, hafter, rfl | rfl⟩ := after_writeChars s n
    · exact ⟨.inside, k, by rw [hafter]; rfl, .inl rfl⟩
    · exact ⟨.broken, k, by rw [hafter]; rfl, .inr rfl⟩

theorem isMark_of_isNumberChar {c : Char} (h : IsNumberChar c) : isMark c = false :=
  forall_numberChar (P := fun c => isMark c = false) (by decide) (by decide) h

theorem unmarked_intText (n : Int) : Unmarked (Value.intText n) := by
  have hdigits : Unmarked (digits n.natAbs) := unmarked_digits (allDigits_digits _)
  unfold Value.intText
  split
  · exact Unmarked.append (a := ['-']) (by decide) hdigits
  · exact hdigits

theorem unmarked_writeFloat (x : Binary64) : Unmarked (writeFloat x) := by
  unfold writeFloat
  split
  · decide
  · next hnan =>
    split
    · split <;> decide
    · next hinf =>
      obtain ⟨s, text, hspells, htext, -⟩ :=
        exact_spells (by simpa using hnan) (by simpa using hinf)
      rw [htext]
      exact fun c hc => isMark_of_isNumberChar (hspells.signed_numberChars c hc)

mutual

theorem paired_write : ∀ v, Paired (write v)
  | .null => paired_of_unmarked (by decide)
  | .bool b => paired_of_unmarked (by cases b <;> decide)
  | .int n => paired_of_unmarked (unmarked_intText n)
  | .float x => paired_of_unmarked (unmarked_writeFloat x)
  | .text s => paired_writeText s.toList
  | .list items => (paired_writeItems items).between (.inl ⟨rfl, rfl⟩)
  | .record fields => (paired_writeFields fields).between (.inr ⟨rfl, rfl⟩)

theorem paired_writeItems : ∀ items, Paired (writeItems items)
  | [] => paired_of_unmarked (by decide)
  | [v] => paired_write v
  | v :: w :: rest => (paired_write v).append
    ((paired_of_unmarked (by decide : Unmarked [','])).append (paired_writeItems (w :: rest)))

theorem paired_writeFields : ∀ fields, Paired (writeFields fields)
  | [] => paired_of_unmarked (by decide)
  | [(n, v)] => (paired_writeText n.toList).append
    ((paired_of_unmarked (by decide : Unmarked [':'])).append (paired_write v))
  | (n, v) :: f :: rest => (paired_writeText n.toList).append
    ((paired_of_unmarked (by decide : Unmarked [':'])).append ((paired_write v).append
      ((paired_of_unmarked (by decide : Unmarked [','])).append (paired_writeFields (f :: rest)))))

end

/-- A record that was cut is nested, wherever it was cut. -/
theorem nesting_of_cut {fields : List (String × Value)} {torn : List Char}
    (h : torn <+: write (.record fields)) (hne : torn ≠ []) (hcut : torn ≠ write (.record fields)) :
    1 ≤ (Scan.after ⟨.outside, 0⟩ torn).nesting := by
  rcases List.prefix_cons_iff.1 h with rfl | ⟨q, rfl, hq⟩
  · exact absurd rfl hne
  · rcases List.prefix_concat_iff.1 hq with rfl | hq
    · exact absurd rfl hcut
    · exact (paired_writeFields fields).rises 1 q hq

/-- A whole record after what left the scan nested, in a string or broken does not mend it. -/
theorem after_record_ne {s : Scan} (hnesting : 1 ≤ s.nesting) (fields : List (String × Value)) :
    s.after (write (.record fields)) ≠ ⟨.outside, 0⟩ := by
  have hpaired := paired_write (.record fields)
  obtain ⟨mode, n⟩ := s
  have hinside : Scan.after ⟨.inside, n⟩ (write (.record fields)) ≠ ⟨.outside, 0⟩ := by
    obtain ⟨mode, k, hafter, rfl | rfl⟩ := hpaired.flips n <;> rw [hafter] <;> simp
  cases mode with
  | outside =>
    rw [hpaired.ends n]
    rintro h
    rw [h] at hnesting
    exact absurd hnesting (by decide)
  | inside => exact hinside
  | escaped => exact hinside
  | broken =>
    rw [Scan.after_broken]
    simp

/-- A record, or a part of one, with a record behind it is not read. -/
theorem read_glued_ne_ok {fs : List (String × Value)} {torn : List Char}
    (hfs : (Value.record fs).Storable depthLimit) (htorn : torn <+: write (.record fs))
    (hne : torn ≠ []) (gs : List (String × Value)) (v : Value) :
    read (torn ++ write (.record gs)) ≠ .ok v := by
  intro h
  by_cases hcut : torn = write (.record fs)
  · -- A whole record leaves the scan as it was, and it is the grammar that allows nothing behind it.
    subst hcut
    have htokens : tokens (write (.record fs) ++ write (.record gs)) =
        tokensOf (.record fs) ++ tokens (write (.record gs)) :=
      cuts_of_storable hfs _ (closes_mark (by decide) _)
    have hmore : tokens (write (.record gs)) = .openRecord :: tokens (writeFields gs ++ ['\x7d']) :=
      tokens_cons rfl _
    have hvalue := reads_of_storable hfs
      ((tokensOf (.record fs) ++ tokens (write (.record gs))).length + 1)
      (tokens (write (.record gs))) (by rw [List.length_append]; omega)
    unfold read at h
    rw [htokens] at h
    simp only [hvalue, bind, Except.bind] at h
    rw [hmore] at h
    cases h
  · have hafter := after_of_read h
    rw [Scan.after_append] at hafter
    exact after_record_ne (nesting_of_cut htorn hne hcut) gs hafter

end Json

end PlanarDrive
