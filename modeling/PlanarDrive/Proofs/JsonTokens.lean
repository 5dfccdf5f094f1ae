import PlanarDrive.Json.Token

/-!
# The text that a token covers

A token is read off a piece of text, and only strings and brackets have marks in their piece:
quotes, backslashes and brackets. Each piece has a character, so the tokens of a text can be told
one by one, whatever was read before.
-/

namespace PlanarDrive

namespace Decimal

theorem takeSign_piece (text : List Char) :
    ∃ sign, text = sign ++ (takeSign text).2 ∧ ∀ c ∈ sign, c = '-' ∨ c = '+' := by
  unfold takeSign
  split
  · exact ⟨['-'], rfl, by simp⟩
  · exact ⟨['+'], rfl, by simp⟩
  · exact ⟨[], rfl, by simp⟩

theorem takeWhile_isDigit (text : List Char) : ∀ c ∈ text.takeWhile isDigit, isDigit c = true :=
  List.all_eq_true.1 List.all_takeWhile

end Decimal

namespace Json

open Decimal

/-- The characters that tell where strings end and how deep a text is nested. -/
def isMark (c : Char) : Bool :=
  c == '"' || c == '\\' || c == '[' || c == ']' || c == '\x7b' || c == '\x7d'

def Unmarked (piece : List Char) : Prop :=
  ∀ c ∈ piece, isMark c = false

instance (piece : List Char) : Decidable (Unmarked piece) :=
  List.decidableBAll _ piece

/-- What stands between the quotes of a string: a quote only after a backslash. -/
inductive Quotable : List Char → Prop
  | nil : Quotable []
  | plain {c : Char} {rest : List Char} (hquote : c ≠ '"') (hslash : c ≠ '\\')
    (hrest : Quotable rest) : Quotable (c :: rest)
  | escape (c : Char) {rest : List Char} (hrest : Quotable rest) : Quotable ('\\' :: c :: rest)

inductive Token.Covers : Token → List Char → Prop
  | openRecord : Covers .openRecord ['\x7b']
  | closeRecord : Covers .closeRecord ['\x7d']
  | openList : Covers .openList ['[']
  | closeList : Covers .closeList [']']
  | comma : Covers .comma [',']
  | colon : Covers .colon [':']
  | leaf (v : Value) {piece : List Char} (hne : piece ≠ []) (hpiece : Unmarked piece) :
    Covers (.leaf v) piece
  | name (s : String) {body : List Char} (hbody : Quotable body) :
    Covers (.name s) ('"' :: (body ++ ['"']))
  | longInteger {sign whole tail : List Char} (hsign : Unmarked sign)
    (hwhole : ∀ c ∈ whole, isDigit c = true) (hlong : digitLimit < whole.length)
    (htail : Unmarked tail) : Covers .longInteger (sign ++ (whole ++ tail))

theorem unmarked_nil : Unmarked [] := by
  rintro c ⟨⟩

theorem Unmarked.append {a b : List Char} (ha : Unmarked a) (hb : Unmarked b) :
    Unmarked (a ++ b) := by
  intro c hc
  exact (List.mem_append.1 hc).elim (ha c) (hb c)

theorem isMark_of_isDigit {c : Char} (h : isDigit c = true) : isMark c = false := by
  have hlow : '0' ≤ c := by simp_all [isDigit]
  have hhigh : c ≤ '9' := by simp_all [isDigit]
  simp only [isMark, Bool.or_eq_false_iff, beq_eq_false_iff_ne]
  refine ⟨⟨⟨⟨⟨?_, ?_⟩, ?_⟩, ?_⟩, ?_⟩, ?_⟩ <;> rintro rfl <;> revert hlow hhigh <;> decide

theorem unmarked_digits {ds : List Char} (h : ∀ c ∈ ds, isDigit c = true) : Unmarked ds :=
  fun c hc => isMark_of_isDigit (h c hc)

theorem Token.Covers.ne_nil {t : Token} {piece : List Char} (h : t.Covers piece) : piece ≠ [] := by
  cases h with
  | leaf v hne hpiece => exact hne
  | longInteger hsign hwhole hlong htail =>
    intro hnil
    simp only [List.append_eq_nil_iff] at hnil
    rw [hnil.2.1] at hlong
    exact absurd hlong (by decide)
  | _ => exact List.cons_ne_nil _ _

theorem wholePart_piece (text : List Char) :
    text = (wholePart text).1 ++ (wholePart text).2 ∧
      ∀ c ∈ (wholePart text).1, isDigit c = true := by
  unfold wholePart
  split
  · refine ⟨rfl, fun c hc => ?_⟩
    cases List.mem_singleton.1 hc
    rfl
  · exact ⟨List.takeWhile_append_dropWhile.symm, takeWhile_isDigit _⟩

theorem fractionPart_piece (text : List Char) :
    ∃ piece, text = piece ++ (fractionPart text).2 ∧ Unmarked piece := by
  unfold fractionPart
  split
  · next d rest =>
    split
    · next hd =>
      refine ⟨'.' :: d :: rest.takeWhile isDigit, by simp, ?_⟩
      have hds := unmarked_digits (takeWhile_isDigit rest)
      intro c hc
      rcases List.mem_cons.1 hc with rfl | hc
      · rfl
      · rcases List.mem_cons.1 hc with rfl | hc
        · exact isMark_of_isDigit hd
        · exact hds c hc
    · exact ⟨[], rfl, unmarked_nil⟩
  · exact ⟨[], rfl, unmarked_nil⟩

theorem exponentPart_piece (text : List Char) :
    ∃ piece, text = piece ++ (exponentPart text).2 ∧ Unmarked piece := by
  unfold exponentPart
  split
  · exact ⟨[], rfl, unmarked_nil⟩
  · next c rest =>
    obtain ⟨sign, hsign, hchars⟩ := takeSign_piece rest
    dsimp only
    split
    · next h =>
      have hc : c = 'e' ∨ c = 'E' := by
        simp only [Bool.and_eq_true, Bool.or_eq_true, beq_iff_eq] at h
        exact h.1
      refine ⟨c :: (sign ++ (takeSign rest).2.takeWhile isDigit), ?_, ?_⟩
      · rw [List.cons_append, List.append_assoc, List.takeWhile_append_dropWhile, ← hsign]
      · intro d hd
        rcases List.mem_cons.1 hd with rfl | hd
        · rcases hc with rfl | rfl <;> rfl
        · rcases List.mem_append.1 hd with hd | hd
          · rcases hchars d hd with rfl | rfl <;> rfl
          · exact isMark_of_isDigit (takeWhile_isDigit _ d hd)
    · exact ⟨[], rfl, unmarked_nil⟩

/-- A number covers the digits and signs it was read from, after an unmarked sign. -/
theorem number_covers (negative : Bool) (text : List Char) {sign : List Char}
    (hsign : Unmarked sign) :
    number negative text = (.malformed, []) ∨
    ∃ piece, text = piece ++ (number negative text).2 ∧
      (number negative text).1.Covers (sign ++ piece) := by
  obtain ⟨hwhole, hdigits⟩ := wholePart_piece text
  obtain ⟨fraction, hfraction, hf⟩ := fractionPart_piece (wholePart text).2
  obtain ⟨exponent, hexponent, he⟩ := exponentPart_piece (fractionPart (wholePart text).2).2
  have hafter := hf.append he
  have htext : text = ((wholePart text).1 ++ (fraction ++ exponent)) ++
      (exponentPart (fractionPart (wholePart text).2).2).2 := by
    rw [List.append_assoc, List.append_assoc, ← hexponent, ← hfraction, ← hwhole]
  have hall : Unmarked ((wholePart text).1 ++ (fraction ++ exponent)) :=
    (unmarked_digits hdigits).append hafter
  unfold number
  dsimp only
  split
  · exact .inl rfl
  · next hsome =>
    have hne : sign ++ ((wholePart text).1 ++ (fraction ++ exponent)) ≠ [] := by
      rw [List.isEmpty_iff] at hsome
      simp [hsome]
    right
    split
    · split
      · next hlong => exact ⟨_, htext, .longInteger hsign hdigits hlong hafter⟩
      · exact ⟨_, htext, .leaf _ hne (hsign.append hall)⟩
    · exact ⟨_, htext, .leaf _ hne (hsign.append hall)⟩

theorem word?_piece {word text rest : List Char} (h : word? word text = some rest) :
    text = word ++ rest := by
  unfold word? at h
  split at h
  · next hword =>
    cases h
    exact (List.prefix_iff_eq_append.1 (List.isPrefixOf_iff_prefix.1 hword)).symm
  · cases h

theorem wordToken_covers (text : List Char) :
    wordToken text = (.malformed, []) ∨
    ∃ piece, text = piece ++ (wordToken text).2 ∧ (wordToken text).1.Covers piece := by
  have hword {word rest : List Char} (hne : word ≠ []) (hu : Unmarked word) (v : Value)
      (h : word? word text = some rest) :
      ∃ piece, text = piece ++ rest ∧ (Token.leaf v).Covers piece :=
    ⟨word, word?_piece h, .leaf v hne hu⟩
  unfold wordToken
  split
  · next h => exact .inr (hword (by decide) (by decide) _ h)
  · next h _ => exact .inr (hword (by decide) (by decide) _ h)
  · next h _ _ => exact .inr (hword (by decide) (by decide) _ h)
  · next h _ _ _ => exact .inr (hword (by decide) (by decide) _ h)
  · next h _ _ _ _ => exact .inr (hword (by decide) (by decide) _ h)
  · exact .inl rfl

theorem hexValue?_ne {c : Char} {n : Nat} (h : hexValue? c = some n) : c ≠ '"' ∧ c ≠ '\\' := by
  constructor <;> rintro rfl <;> cases h

theorem codeUnit?_piece {text rest : List Char} {n : Nat} (h : codeUnit? text = some (n, rest)) :
    ∃ piece, text = piece ++ rest ∧ ∀ more, Quotable more → Quotable (piece ++ more) := by
  unfold codeUnit? at h
  split at h
  · next a b c d tail =>
    simp only [Option.bind_eq_bind, Option.bind_eq_some_iff, Option.some.injEq,
      Prod.mk.injEq] at h
    obtain ⟨_, ha, _, hb, _, hc, _, hd, _, rfl⟩ := h
    refine ⟨[a, b, c, d], rfl, fun more hmore => ?_⟩
    exact .plain (hexValue?_ne ha).1 (hexValue?_ne ha).2 (.plain (hexValue?_ne hb).1
      (hexValue?_ne hb).2 (.plain (hexValue?_ne hc).1 (hexValue?_ne hc).2
      (.plain (hexValue?_ne hd).1 (hexValue?_ne hd).2 hmore)))
  · cases h

theorem pairedChar_piece (high : Nat) (rest : List Char) :
    ∃ piece, rest = piece ++ (pairedChar high rest).2 ∧
      ∀ more, Quotable more → Quotable (piece ++ more) := by
  have hnone : ∃ piece, rest = piece ++ rest ∧ ∀ more, Quotable more → Quotable (piece ++ more) :=
    ⟨[], rfl, fun _ h => h⟩
  unfold pairedChar
  split
  · next more _ =>
    split
    · next hunit =>
      split
      · obtain ⟨piece, rfl, hpiece⟩ := codeUnit?_piece hunit
        exact ⟨'\\' :: 'u' :: piece, rfl, fun more hmore => .escape 'u' (hpiece more hmore)⟩
      · exact hnone
    · exact hnone
  · exact hnone

theorem escape?_piece {text rest : List Char} {c : Char} (h : escape? text = some (c, rest)) :
    ∃ piece, text = piece ++ rest ∧ ∀ more, Quotable more → Quotable ('\\' :: (piece ++ more)) := by
  unfold escape? at h
  split at h
  · cases h
  · next tail =>
    obtain ⟨⟨n, after⟩, hunit, hpair⟩ := Option.map_eq_some_iff.1 h
    obtain ⟨unit, rfl, hu⟩ := codeUnit?_piece hunit
    obtain ⟨piece, hpiece, hp⟩ := pairedChar_piece n after
    rw [hpair] at hpiece
    refine ⟨'u' :: (unit ++ piece), by rw [hpiece]; simp, fun more hmore => ?_⟩
    rw [List.cons_append, List.append_assoc]
    exact .escape 'u' (hu _ (hp more hmore))
  · next d tail _ =>
    obtain ⟨_, _, heq⟩ := Option.map_eq_some_iff.1 h
    cases heq
    exact ⟨[d], rfl, fun more hmore => .escape d hmore⟩

theorem stringBody_piece {past text body rest : List Char}
    (h : stringBody past text = some (body, rest)) :
    ∃ piece, text = piece ++ '"' :: rest ∧ Quotable piece := by
  fun_induction stringBody past text with
  | case1 => cases h
  | case2 past tail =>
    cases h
    exact ⟨[], rfl, .nil⟩
  | case3 past tail c more hescape ih =>
    obtain ⟨piece, rfl, hpiece⟩ := ih h
    obtain ⟨front, rfl, hfront⟩ := escape?_piece hescape
    exact ⟨'\\' :: (front ++ piece), by simp, hfront _ hpiece⟩
  | case4 => cases h
  | case5 => cases h
  | case6 past c tail hquote hslash hlow ih =>
    obtain ⟨piece, rfl, hpiece⟩ := ih h
    exact ⟨c :: piece, rfl, .plain (fun he => hquote he) (fun he => hslash he) hpiece⟩

/-- The first token covers the beginning of the text, unless nothing can be read. -/
theorem next_covers (c : Char) (rest : List Char) :
    next c rest = (.malformed, []) ∨
    ∃ piece, c :: rest = piece ++ (next c rest).2 ∧ (next c rest).1.Covers piece := by
  unfold next
  split
  · exact .inr ⟨_, rfl, .openRecord⟩
  · exact .inr ⟨_, rfl, .closeRecord⟩
  · exact .inr ⟨_, rfl, .openList⟩
  · exact .inr ⟨_, rfl, .closeList⟩
  · exact .inr ⟨_, rfl, .comma⟩
  · exact .inr ⟨_, rfl, .colon⟩
  · split
    · next hbody =>
      obtain ⟨piece, rfl, hpiece⟩ := stringBody_piece hbody
      exact .inr ⟨'"' :: (piece ++ ['"']), by simp, .name _ hpiece⟩
    · exact .inl rfl
  · have hsign : Unmarked ['-'] := by decide
    split
    · next hword =>
      exact .inr ⟨'-' :: "Infinity".toList, congrArg _ (word?_piece hword), .leaf _ (by decide)
        (by decide)⟩
    · exact (number_covers true rest hsign).imp_right fun ⟨piece, htext, hcovers⟩ =>
        ⟨'-' :: piece, congrArg _ htext, hcovers⟩
  · split
    · exact number_covers false _ unmarked_nil
    · exact wordToken_covers _

theorem length_next_le (c : Char) (rest : List Char) : (next c rest).2.length ≤ rest.length := by
  rcases next_covers c rest with h | ⟨piece, htext, hcovers⟩
  · simp [h]
  · have hlen := congrArg List.length htext
    have hpos := List.length_pos_iff.2 hcovers.ne_nil
    rw [List.length_cons, List.length_append] at hlen
    omega

theorem tokenize_eq {fuel : Nat} {text : List Char} (h : text.length ≤ fuel) (past : List Token) :
    tokenize fuel past text = past.reverse ++ tokens text := by
  induction hn : text.length using Nat.strongRecOn generalizing fuel text past with
  | ind n ih =>
    subst hn
    cases text with
    | nil => cases fuel <;> simp [tokenize, tokens]
    | cons c rest =>
      obtain ⟨fuel, rfl⟩ := Nat.exists_eq_add_one_of_ne_zero (Nat.ne_of_gt (Nat.lt_of_lt_of_le
        (Nat.succ_pos _) h))
      rw [List.length_cons] at h
      have hmore := length_next_le c rest
      rw [tokens, tokenize, List.length_cons, tokenize]
      split
      · rw [ih _ (by simp) (by omega) past rfl, ih _ (by simp) (Nat.le_refl _) [] rfl]
        rfl
      · dsimp only
        rw [ih _ (by simp; omega) (by omega) _ rfl, ih _ (by simp; omega) hmore _ rfl]
        simp

theorem tokens_nil : tokens [] = [] :=
  rfl

theorem tokens_space {c : Char} (h : isSpace c = true) (rest : List Char) :
    tokens (c :: rest) = tokens rest := by
  rw [tokens, List.length_cons, tokenize, if_pos h, tokens]

theorem tokens_cons {c : Char} (h : isSpace c = false) (rest : List Char) :
    tokens (c :: rest) = (next c rest).1 :: tokens (next c rest).2 := by
  rw [tokens, List.length_cons, tokenize, if_neg (by simp [h])]
  exact tokenize_eq (length_next_le c rest) _

end Json

end PlanarDrive
