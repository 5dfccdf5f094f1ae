import PlanarDrive.Json.Reader
import PlanarDrive.Json.Writer

/-!
# Strings in JSON text

Every character is read back from its escape: from its letter, from the four digits of its code
unit, or from a pair of units. So a written string ends exactly where it was ended, whatever
characters are in it, and only printable ones are used to write it.
-/

namespace PlanarDrive

namespace Text

theorem hex_succ {width : Nat} (hw : 0 < width) (n : Nat) :
    hex (width + 1) n = hex width (n / 16) ++ [(n % 16).digitChar] := by
  unfold hex
  by_cases hn : n < 16
  · have hzero : n / 16 = 0 := Nat.div_eq_of_lt hn
    rw [Nat.toDigits_of_lt_base hn, Nat.mod_eq_of_lt hn, hzero, Nat.toDigits_zero]
    obtain ⟨w, rfl⟩ := Nat.exists_eq_succ_of_ne_zero (Nat.ne_of_gt hw)
    simp [List.replicate_succ']
  · have hlen : width + 1 - ((Nat.toDigits 16 (n / 16)).length + 1) =
        width - (Nat.toDigits 16 (n / 16)).length := by omega
    rw [Nat.toDigits_of_base_le (by decide) (by omega)]
    simp only [List.length_append, List.length_singleton, hlen, List.append_assoc]

theorem hex_one {n : Nat} (h : n < 16) : hex 1 n = [n.digitChar] := by
  simp [hex, Nat.toDigits_of_lt_base h]

end Text

namespace Json

theorem hexValue?_digitChar : ∀ d < 16, hexValue? d.digitChar = some d := by
  decide

theorem codeUnit?_hex {n : Nat} (h : n < 0x10000) (rest : List Char) :
    codeUnit? (Text.hex 4 n ++ rest) = some (n, rest) := by
  rw [Text.hex_succ (by decide), Text.hex_succ (by decide), Text.hex_succ (by decide),
    Text.hex_one (by omega)]
  simp only [List.cons_append, List.nil_append, codeUnit?, Option.bind_eq_bind,
    hexValue?_digitChar _ (Nat.mod_lt _ (by decide : 0 < 16)),
    hexValue?_digitChar (n / 16 / 16 / 16) (by omega), Option.bind_some, Option.some.injEq,
    Prod.mk.injEq, and_true]
  omega

section Body

variable {past more rest : List Char} {c : Char}

theorem stringBody_escape (h : escape? rest = some (c, more)) :
    stringBody past ('\\' :: rest) = stringBody (c :: past) more := by
  rw [stringBody]
  split
  · next h' =>
    rw [h] at h'
    cases h'
    rfl
  · next h' =>
    rw [h] at h'
    cases h'

theorem stringBody_short {d : Char} (hd : d ≠ 'u') (h : shortEscape? d = some c) :
    stringBody past ('\\' :: d :: rest) = stringBody (c :: past) rest := by
  refine stringBody_escape ?_
  unfold escape?
  split
  · next heq => cases heq
  · next heq => exact absurd (List.cons.inj heq).1 hd
  · next heq =>
    obtain ⟨rfl, rfl⟩ := List.cons.inj heq
    rw [h, Option.map_some]

theorem stringBody_plain (hquote : c ≠ '"') (hslash : c ≠ '\\') (hc : 0x20 ≤ c.toNat) :
    stringBody past (c :: rest) = stringBody (c :: past) rest := by
  rw [stringBody, if_neg (by omega)]
  · exact hquote
  · exact hslash

end Body

theorem char_valid (c : Char) : c.toNat < 0xd800 ∨ 0xdfff < c.toNat ∧ c.toNat < 0x110000 :=
  c.valid

theorem pairedChar_single {n : Nat} (h : isHighUnit n = false) (rest : List Char) :
    pairedChar n rest = (charOfUnit n, rest) := by
  simp [pairedChar, h]

theorem pairedChar_pair {high low : Nat} (hhigh : isHighUnit high = true)
    (hlow : isLowUnit low = true) (h : low < 0x10000) (rest : List Char) :
    pairedChar high ('\\' :: 'u' :: (Text.hex 4 low ++ rest)) = (charOfPair high low, rest) := by
  unfold pairedChar
  simp only [hhigh, codeUnit?_hex h, hlow, if_true]

/-- A character is one code unit, which is no half of a pair, or the two halves of a pair. -/
theorem codeUnits_cases (c : Char) :
    (∃ n < 0x10000, codeUnits c = [n] ∧ isHighUnit n = false ∧ charOfUnit n = c) ∨
    ∃ high < 0x10000, ∃ low < 0x10000, codeUnits c = [high, low] ∧ isHighUnit high = true ∧
      isLowUnit low = true ∧ charOfPair high low = c := by
  have hvalid := char_valid c
  by_cases hc : c.toNat < 0x10000
  · have hhigh : isHighUnit c.toNat = false := by simp [isHighUnit]; omega
    have hlow : isLowUnit c.toNat = false := by simp [isLowUnit]; omega
    exact .inl ⟨c.toNat, hc, if_pos hc, hhigh, by simp [charOfUnit, hhigh, hlow]⟩
  · obtain ⟨high, hhigh⟩ : ∃ high, 0xd800 + (c.toNat - 0x10000) / 0x400 = high := ⟨_, rfl⟩
    obtain ⟨low, hlow⟩ : ∃ low, 0xdc00 + (c.toNat - 0x10000) % 0x400 = low := ⟨_, rfl⟩
    have hpair : 0x10000 + (high - 0xd800) * 0x400 + (low - 0xdc00) = c.toNat := by omega
    refine .inr ⟨high, by omega, low, by omega, ?_, by simp [isHighUnit]; omega,
      by simp [isLowUnit]; omega, by rw [charOfPair, hpair, Char.ofNat_toNat]⟩
    rw [codeUnits, if_neg hc, hhigh, hlow]

/-- The code units of a character stand for it, whatever follows them. -/
theorem escape?_codeUnits (c : Char) (rest : List Char) : ∃ body,
    ((codeUnits c).flatMap fun n => '\\' :: 'u' :: Text.hex 4 n) ++ rest = '\\' :: body ∧
      escape? body = some (c, rest) := by
  rcases codeUnits_cases c with
    ⟨n, hn, hunits, hhigh, hc⟩ | ⟨high, hh, low, hl, hunits, hhigh, hlow, hc⟩
  · refine ⟨'u' :: (Text.hex 4 n ++ rest), by simp [hunits], ?_⟩
    rw [escape?, codeUnit?_hex hn, Option.map_some, pairedChar_single hhigh, hc]
  · refine ⟨'u' :: (Text.hex 4 high ++ '\\' :: 'u' :: (Text.hex 4 low ++ rest)),
      by simp [hunits], ?_⟩
    rw [escape?, codeUnit?_hex hh, Option.map_some, pairedChar_pair hhigh hlow hl, hc]

theorem stringBody_writeChar (past rest : List Char) (c : Char) :
    stringBody past (writeChar c ++ rest) = stringBody (c :: past) rest := by
  unfold writeChar
  iterate 7
    split
    · next h =>
      subst h
      exact stringBody_short (by decide) rfl
  split
  · next hquote hslash _ _ _ _ _ h => exact stringBody_plain hquote hslash h.1
  · obtain ⟨body, htext, hbody⟩ := escape?_codeUnits c rest
    rw [htext, stringBody_escape hbody]

/-- A written string is read up to its closing quote. -/
theorem stringBody_writeText (past s rest : List Char) :
    stringBody past (s.flatMap writeChar ++ '"' :: rest) = some (past.reverse ++ s, rest) := by
  induction s generalizing past with
  | nil => rw [List.flatMap_nil, List.nil_append, stringBody, List.append_nil]
  | cons c s ih =>
    rw [List.flatMap_cons, List.append_assoc, stringBody_writeChar, ih]
    simp

/-- The characters that are written: from the blank to the tilde. -/
def IsPlain (c : Char) : Prop :=
  ' ' ≤ c ∧ c ≤ '~'

instance (c : Char) : Decidable (IsPlain c) :=
  inferInstanceAs (Decidable (_ ∧ _))

def Printable (text : List Char) : Prop :=
  ∀ c ∈ text, IsPlain c

instance (text : List Char) : Decidable (Printable text) :=
  List.decidableBAll _ text

theorem isPlain_digitChar : ∀ d < 16, IsPlain d.digitChar := by
  decide

theorem printable_hex {n : Nat} (h : n < 0x10000) : Printable (Text.hex 4 n) := by
  rw [Text.hex_succ (by decide), Text.hex_succ (by decide), Text.hex_succ (by decide),
    Text.hex_one (by omega)]
  intro c hc
  simp only [List.cons_append, List.nil_append, List.mem_cons, List.not_mem_nil, or_false] at hc
  rcases hc with rfl | rfl | rfl | rfl <;> exact isPlain_digitChar _ (by omega)

theorem codeUnits_lt (c : Char) : ∀ n ∈ codeUnits c, n < 0x10000 := by
  rcases codeUnits_cases c with ⟨n, hn, hunits, -⟩ | ⟨high, hh, low, hl, hunits, -⟩ <;>
    simp_all

theorem printable_writeChar (c : Char) : Printable (writeChar c) := by
  unfold writeChar
  repeat' split
  all_goals try decide
  · next h => exact fun d hd => List.mem_singleton.1 hd ▸ h
  · intro d hd
    obtain ⟨n, hn, hd⟩ := List.mem_flatMap.1 hd
    rcases List.mem_cons.1 hd with rfl | hd
    · decide
    · rcases List.mem_cons.1 hd with rfl | hd
      · decide
      · exact printable_hex (codeUnits_lt c n hn) d hd

theorem printable_writeText (s : List Char) : Printable (writeText s) := by
  intro d hd
  simp only [writeText, List.mem_cons, List.mem_append, List.mem_flatMap, List.not_mem_nil,
    or_false] at hd
  rcases hd with rfl | ⟨c, -, hd⟩ | rfl
  · decide
  · exact printable_writeChar c d hd
  · decide

end Json

end PlanarDrive
