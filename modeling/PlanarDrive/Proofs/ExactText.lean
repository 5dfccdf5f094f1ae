import Mathlib
import PlanarDrive.Proofs.NumberText

/-!
# The text of an exact number

The shortest numeral of a positive number has a positive coefficient, so its digits begin with one
that is not zero. Wherever the point is put, the text is a written number; the parts of a finite
number therefore never make the text of an integer, and JSON reads in it what free text would.
-/

namespace PlanarDrive

namespace Decimal

theorem digitCount_pos (n : Nat) : 0 < digitCount n := by
  rw [digitCount]
  split <;> omega

theorem lt_pow_digitCount (n : Nat) : n < Nat.pow 10 (digitCount n) := by
  induction n using Nat.strongRecOn with
  | ind n ih =>
    rw [digitCount]
    split
    · omega
    · have h := ih (n / 10) (by omega)
      have hpow : Nat.pow 10 (digitCount (n / 10) + 1) =
          Nat.pow 10 (digitCount (n / 10)) * 10 := rfl
      omega

theorem pow_digitCount_le {n : Nat} (hn : 0 < n) : Nat.pow 10 (digitCount n - 1) ≤ n := by
  induction n using Nat.strongRecOn with
  | ind n ih =>
    rw [digitCount]
    split
    · exact hn
    · have h := ih (n / 10) (by omega) (by omega)
      have hd := digitCount_pos (n / 10)
      obtain ⟨k, hk⟩ := Nat.exists_eq_succ_of_ne_zero (Nat.ne_of_gt hd)
      rw [hk] at h ⊢
      have hpow : Nat.pow 10 (k + 1) = Nat.pow 10 k * 10 := rfl
      simp only [Nat.succ_eq_add_one, Nat.add_sub_cancel] at h ⊢
      omega

theorem roundQuotient_pos {n d : Nat} (hd : 0 < d) (h : d ≤ n) : 0 < roundQuotient n d := by
  have hle := le_roundQuotient n d hd
  rcases Nat.eq_zero_or_pos (roundQuotient n d) with hzero | hpos
  · rw [hzero] at hle
    omega
  · exact hpos

/-- Shifted by as many powers of ten as it has orders, a positive quotient is not below one. -/
theorem shift_order {num den : Nat} (hnum : 0 < num) (hden : 0 < den) (power : Int)
    (hp : -order num den ≤ power) :
    0 < (shift num den power).2 ∧ (shift num den power).2 ≤ (shift num den power).1 := by
  have hten (k : Nat) : 0 < 10 ^ k := Nat.pow_pos (by decide)
  by_cases hle : den ≤ num
  · have hq : 0 < num / den := Nat.div_pos hle hden
    have hpow := pow_digitCount_le hq
    have hcount := digitCount_pos (num / den)
    have horder : order num den = (digitCount (num / den) : Int) - 1 := if_pos hle
    by_cases hneg : power < 0
    · have hshift : shift num den power = (num, den * 10 ^ power.natAbs) := if_pos hneg
      have habs : power.natAbs ≤ digitCount (num / den) - 1 := by omega
      rw [hshift]
      refine ⟨Nat.mul_pos hden (hten _), ?_⟩
      calc den * 10 ^ power.natAbs
          ≤ den * (num / den) :=
            Nat.mul_le_mul_left _
              (Nat.le_trans (Nat.pow_le_pow_right (by decide) habs) hpow)
        _ ≤ num := Nat.mul_div_le num den
    · have hshift : shift num den power = (num * 10 ^ power.natAbs, den) := if_neg hneg
      rw [hshift]
      exact ⟨hden, Nat.le_trans hle (Nat.le_mul_of_pos_right num (hten _))⟩
  · have horder : order num den = -(digitCount ((den - 1) / num) : Int) := if_neg hle
    have hcount := digitCount_pos ((den - 1) / num)
    have hneg : ¬ power < 0 := by omega
    have hshift : shift num den power = (num * 10 ^ power.natAbs, den) := if_neg hneg
    have habs : digitCount ((den - 1) / num) ≤ power.natAbs := by omega
    have hlt : (den - 1) / num < 10 ^ power.natAbs :=
      Nat.lt_of_lt_of_le (lt_pow_digitCount _) (Nat.pow_le_pow_right (by decide) habs)
    rw [hshift]
    refine ⟨hden, ?_⟩
    have h := (Nat.div_lt_iff_lt_mul hnum).1 hlt
    rw [Nat.mul_comm] at h
    omega

theorem Numeral.significant_pos {count num den : Nat} (hcount : 0 < count) (hnum : 0 < num)
    (hden : 0 < den) : 0 < (significant count num den).coefficient := by
  obtain ⟨hpos, hle⟩ :=
    shift_order hnum hden (-(Decimal.order num den - (count - 1 : Int))) (by omega)
  exact roundQuotient_pos hpos hle

/-- The interval of a positive number does not reach down to zero. -/
theorem Interval.pos_of_holds {p : Binary64.Parts} (hp : 0 < p.significand) {n d : Nat}
    (hd : 0 < d) (h : (Interval.around p).holds n d = true) : 0 < n := by
  have hbelow : (Interval.around p).below ≤ 2 := by
    simp only [Interval.around]
    split <;> decide
  have hvalue : (Interval.around p).value = 4 * p.significand := rfl
  have hlow : 0 < ((Interval.around p).value - (Interval.around p).below) * d :=
    Nat.mul_pos (by omega) hd
  unfold Interval.holds at h
  split at h <;> simp only [Bool.and_eq_true, decide_eq_true_eq] at h <;> omega

theorem Interval.onGrid_pos {p : Binary64.Parts} (hp : 0 < p.significand) {exponent : Int}
    {c : Nat} (h : (Interval.around p).onGrid exponent = some c) : 0 < c := by
  have hpow (b k : Nat) (hb : 0 < b) : 0 < Nat.pow b k := Nat.pow_pos hb
  unfold onGrid at h
  extract_lets two ten unit den floor first second at h
  have hden : 0 < den := by
    refine Nat.mul_pos ?_ ?_ <;> split
    · exact hpow _ _ (by decide)
    · exact Nat.one_pos
    · exact Nat.one_pos
    · exact hpow _ _ (by decide)
  split at h
  · next hfirst =>
    rw [← Option.some.inj h]
    exact Nat.pos_of_mul_pos_right (pos_of_holds hp hden hfirst)
  · split at h
    · next hsecond =>
      rw [← Option.some.inj h]
      exact Nat.pos_of_mul_pos_right (pos_of_holds hp hden hsecond)
    · cases h

theorem Interval.firstOnGrid_pos {p : Binary64.Parts} (hp : 0 < p.significand) {top : Int}
    {digits tries : Nat} {n : Numeral}
    (h : (Interval.around p).firstOnGrid top digits tries = some n) : 0 < n.coefficient := by
  induction tries generalizing digits with
  | zero => cases h
  | succ tries ih =>
    simp only [firstOnGrid] at h
    split at h
    · next hgrid =>
      cases h
      exact onGrid_pos hp hgrid
    · exact ih h

theorem ratio_pos {p : Binary64.Parts} (hp : 0 < p.significand) :
    0 < p.ratio.1 ∧ 0 < p.ratio.2 := by
  have htwo (k : Nat) : 0 < Nat.pow 2 k := Nat.pow_pos (by decide)
  unfold Binary64.Parts.ratio
  split
  · exact ⟨hp, htwo _⟩
  · exact ⟨Nat.mul_pos hp (htwo _), Nat.one_pos⟩

theorem Numeral.shortest_pos {p : Binary64.Parts} (hp : 0 < p.significand) :
    0 < (shortest p).coefficient := by
  obtain ⟨hnum, hden⟩ := ratio_pos hp
  unfold shortest
  cases hfirst : (Interval.around p).firstOnGrid (Decimal.order p.ratio.1 p.ratio.2) 0 17 with
  | none =>
    simp only [hfirst, Option.getD_none]
    exact significant_pos (by decide) hnum hden
  | some n =>
    simp only [hfirst, Option.getD_some]
    exact Interval.firstOnGrid_pos hp hfirst

/-- Digits of which the first counts: it is not zero, or it is all there is and counts ones. -/
def Leads (order : Int) (ds : List Char) : Prop :=
  (∃ c rest, ds = c :: rest ∧ c ≠ '0') ∨ ds = ['0'] ∧ order = 0

theorem ofDigits_append (a b : List Char) :
    ofDigits (a ++ b) = ofDigits a * 10 ^ b.length + ofDigits b := by
  induction b generalizing a with
  | nil => simp [ofDigits]
  | cons c b ih =>
    have hsnoc : ofDigits (a ++ [c]) = ofDigits a * 10 + ofDigits [c] := by
      simp [ofDigits, Nat.mul_comm]
    have hcons : ofDigits (c :: b) = ofDigits [c] * 10 ^ b.length + ofDigits b := ih [c]
    rw [List.append_cons, ih, hsnoc, hcons, List.length_cons, Nat.pow_succ', Nat.add_mul,
      Nat.mul_assoc, Nat.add_assoc]

theorem ofDigits_zeros (n : Nat) : ofDigits (List.replicate n '0') = 0 := by
  induction n with
  | zero => rfl
  | succ n ih =>
    rw [List.replicate_succ', ofDigits_append, ih]
    rfl

theorem exponentText_spec (order : Int) : ExponentText order (exponentText order) := by
  have hpad : ∃ ds, ds ≠ [] ∧ AllDigits ds ∧ ofDigits ds = order.natAbs ∧
      exponentText order = 'e' :: (if order < 0 then '-' else '+') :: ds := by
    refine ⟨_, ?_, ?_, ?_, rfl⟩
    · split
      · exact List.cons_ne_nil _ _
      · exact digits_ne_nil _
    · split
      · intro c hc
        rcases List.mem_cons.1 hc with rfl | hc
        · rfl
        · exact allDigits_digits _ c hc
      · exact allDigits_digits _
    · split
      · exact ofDigits_digits _
      · exact ofDigits_digits _
  obtain ⟨ds, hne, hds, hvalue, htext⟩ := hpad
  rw [htext]
  by_cases hneg : order < 0
  · have hsigned := ExponentText.signed true hne hds
    rw [hvalue, if_pos rfl, if_pos rfl, show -(order.natAbs : Int) = order by omega] at hsigned
    rwa [if_pos hneg]
  · have hsigned := ExponentText.signed false hne hds
    rw [hvalue, if_neg Bool.false_ne_true, if_neg Bool.false_ne_true,
      show (order.natAbs : Int) = order by omega] at hsigned
    rwa [if_neg hneg]

theorem allDigits_zeros (n : Nat) : AllDigits (List.replicate n '0') := by
  intro c hc
  rw [List.eq_of_mem_replicate hc]
  rfl

theorem AllDigits.append {a b : List Char} (ha : AllDigits a) (hb : AllDigits b) :
    AllDigits (a ++ b) := fun c hc => (List.mem_append.1 hc).elim (ha c) (hb c)

theorem AllDigits.take {ds : List Char} (h : AllDigits ds) (n : Nat) : AllDigits (ds.take n) :=
  fun c hc => h c (List.mem_of_mem_take hc)

theorem AllDigits.drop {ds : List Char} (h : AllDigits ds) (n : Nat) : AllDigits (ds.drop n) :=
  fun c hc => h c (List.mem_of_mem_drop hc)

theorem Layout.place_exact (order : Int) (ds : List Char) :
    Layout.exact.place order ds =
      if order < -4 ∨ 16 ≤ order then
        ds.take 1 ++ (fractionText (ds.drop 1) ++ exponentText order)
      else if order < 0 then '0' :: '.' :: (List.replicate (order.natAbs - 1) '0' ++ ds)
      else if ds.length ≤ order.toNat + 1 then
        ds ++ List.replicate (order.toNat + 1 - ds.length) '0' ++ ['.', '0']
      else ds.take (order.toNat + 1) ++ '.' :: ds.drop (order.toNat + 1) := by
  have hfraction : fractionText (ds.drop 1) = if ds.length ≤ 1 then [] else '.' :: ds.drop 1 := by
    simp only [fractionText, List.drop_eq_nil_iff]
  rw [hfraction, ← List.append_assoc]
  rfl

/-- The spelling has the value of the numeral: with as many zeros more or fewer behind the digits as
the point stands further left or right. -/
def Spelling.Writes (s : Spelling) (n : Numeral) : Prop :=
  ∃ fewer more : Nat,
    ofDigits (s.whole ++ s.fraction) * 10 ^ fewer = n.coefficient * 10 ^ more ∧
      s.exponent - s.fraction.length + more = n.exponent + fewer

/-- Wherever the point comes to stand, the text is a written number with the value of its digits. -/
theorem Layout.place_spells (negative : Bool) {order : Int} {ds : List Char} (hds : AllDigits ds)
    (hleads : Leads order ds) :
    ∃ s : Spelling, s.negative = negative ∧ s.Spells (Layout.exact.place order ds) ∧
      s.Writes ⟨ofDigits ds, order + 1 - ds.length⟩ := by
  have hne : ds ≠ [] := by
    rcases hleads with ⟨c, rest, rfl, -⟩ | ⟨rfl, -⟩ <;> exact List.cons_ne_nil _ _
  have hlimit : digitLimit = 4300 := rfl
  have hlength : 0 < ds.length := List.length_pos_iff.2 hne
  rw [place_exact]
  split_ifs with hexp hneg hshort
  · refine ⟨⟨negative, ds.take 1, ds.drop 1, order⟩, rfl, ⟨hds.take 1, ?_, hds.drop 1, ?_, ?_⟩,
      0, 0, ?_, ?_⟩
    · rcases hleads with ⟨c, rest, rfl, hc⟩ | ⟨rfl, -⟩
      · exact .inr ⟨c, [], rfl, hc⟩
      · exact .inl rfl
    · rw [List.length_take]
      omega
    · exact ⟨exponentText order, exponentText_spec order, rfl, .inr (List.cons_ne_nil _ _)⟩
    · rw [List.take_append_drop]
    · simp only [List.length_drop]
      omega
  · have hzeros := (allDigits_zeros (order.natAbs - 1)).append hds
    have hrest : List.replicate (order.natAbs - 1) '0' ++ ds ≠ [] := by simp [hne]
    refine ⟨⟨negative, ['0'], List.replicate (order.natAbs - 1) '0' ++ ds, 0⟩, rfl,
      ⟨allDigits_zeros 1, .inl rfl, hzeros, by simp [hlimit], [], .absent, ?_, .inl hrest⟩,
      0, 0, ?_, ?_⟩
    · rw [List.append_nil, fractionText, if_neg hrest]
      rfl
    · have hzero : ofDigits ['0'] = 0 := rfl
      rw [ofDigits_append, ofDigits_append _ ds, ofDigits_zeros, hzero, Nat.zero_mul, Nat.zero_mul,
        Nat.zero_add, Nat.zero_add]
    · simp only [List.length_append, List.length_replicate]
      omega
  · refine ⟨⟨negative, ds ++ List.replicate (order.toNat + 1 - ds.length) '0', ['0'], 0⟩, rfl,
      ⟨hds.append (allDigits_zeros _), ?_, allDigits_zeros 1, ?_, [], .absent, rfl,
        .inl (List.cons_ne_nil _ _)⟩, 0, order.toNat + 1 - ds.length + 1, ?_, ?_⟩
    · rcases hleads with ⟨c, rest, rfl, hc⟩ | ⟨rfl, rfl⟩
      · exact .inr ⟨c, _, rfl, hc⟩
      · exact .inl rfl
    · rw [List.length_append, List.length_replicate]
      omega
    · rw [List.append_assoc, ← List.replicate_succ', ofDigits_append, ofDigits_zeros,
        List.length_replicate, Nat.add_zero, Nat.pow_zero, Nat.mul_one]
    · simp only [List.length_singleton]
      omega
  · have hrest : ds.drop (order.toNat + 1) ≠ [] := by
      rw [Ne, List.drop_eq_nil_iff]
      exact hshort
    refine ⟨⟨negative, ds.take (order.toNat + 1), ds.drop (order.toNat + 1), 0⟩, rfl,
      ⟨hds.take _, ?_, hds.drop _, ?_, [], .absent, ?_, .inl hrest⟩, 0, 0, ?_, ?_⟩
    · rcases hleads with ⟨c, rest, rfl, hc⟩ | ⟨rfl, rfl⟩
      · exact .inr ⟨c, _, rfl, hc⟩
      · exact absurd (Nat.le_refl 1) hshort
    · rw [List.length_take]
      omega
    · rw [List.append_nil, fractionText, if_neg hrest]
    · rw [List.take_append_drop]
    · simp only [List.length_drop]
      omega

theorem length_digits (n : Nat) : (digits n).length = digitCount n := by
  induction n using Nat.strongRecOn with
  | ind n ih =>
    rw [digitCount]
    by_cases hn : n < 10
    · rw [if_pos hn, digits, Nat.toDigits_of_lt_base hn]
      rfl
    · have hd : digits n = digits (n / 10) ++ [(n % 10).digitChar] :=
        Nat.toDigits_of_base_le (by decide) (by omega)
      rw [if_neg hn, hd, List.length_append, ih (n / 10) (by omega)]
      rfl

theorem length_digits_le {n count : Nat} (hcount : 0 < count) (h : n < 10 ^ count) :
    (digits n).length ≤ count := by
  rw [length_digits]
  rcases Nat.eq_zero_or_pos n with rfl | hn
  · have hone : digitCount 0 = 1 := by
      rw [digitCount]
      rfl
    omega
  · have hlt : 10 ^ (digitCount n - 1) < 10 ^ count := Nat.lt_of_le_of_lt (pow_digitCount_le hn) h
    have hexponent := (Nat.pow_lt_pow_iff_right (by decide)).1 hlt
    omega

theorem significantDigits_spec {n : Nat} (hn : 0 < n) :
    AllDigits (significantDigits n) ∧ (∃ c rest, significantDigits n = c :: rest ∧ c ≠ '0') ∧
      ∃ zeros, n = ofDigits (significantDigits n) * 10 ^ zeros ∧
        (significantDigits n).length + zeros = digitCount n := by
  have hsplit : ∃ zeros, digits n = significantDigits n ++ List.replicate zeros '0' := by
    have hzeros : ∀ c ∈ ((digits n).reverse.takeWhile (· == '0')).reverse, c = '0' := fun c hc =>
      eq_of_beq (List.all_eq_true.1 List.all_takeWhile c (List.mem_reverse.1 hc))
    refine ⟨((digits n).reverse.takeWhile (· == '0')).reverse.length, ?_⟩
    rw [← List.eq_replicate_of_mem hzeros, significantDigits, ← List.reverse_append,
      List.takeWhile_append_dropWhile, List.reverse_reverse]
  obtain ⟨zeros, hdigits⟩ := hsplit
  have hlength := length_digits n
  have hvalue := ofDigits_digits n
  rw [hdigits, List.length_append, List.length_replicate] at hlength
  refine ⟨fun c hc => allDigits_digits n c (hdigits ▸ List.mem_append_left _ hc), ?_, zeros, ?_,
    hlength⟩
  · rcases noLeadingZero_digits n with hzero | ⟨c, rest, hc, hne⟩
    · rw [hzero] at hvalue
      exact absurd hvalue (by rintro rfl; exact absurd hn (by decide))
    · rw [hc] at hdigits
      cases hsig : significantDigits n with
      | nil =>
        rw [hsig, List.nil_append] at hdigits
        exact absurd (List.eq_of_mem_replicate (hdigits ▸ List.mem_cons_self)) hne
      | cons d more =>
        rw [hsig] at hdigits
        exact ⟨d, more, rfl, (List.cons.inj hdigits).1 ▸ hne⟩
  · rw [hdigits, ofDigits_append, ofDigits_zeros, List.length_replicate] at hvalue
    exact hvalue.symm

def numeralOf (p : Binary64.Parts) : Numeral :=
  if p.significand = 0 then ⟨0, 0⟩ else .shortest p

/-- The text of a finite number is a written number with the number's sign, and the value of the
numeral. -/
theorem exact_spells {x : Binary64} (hnan : x.isNaN = false) (hinf : x.isInfinite = false) :
    ∃ (s : Spelling) (text : List Char), s.Spells text ∧ exact x = signedText s.negative text ∧
      s.negative = x.isNegative ∧ s.Writes (numeralOf x.parts) := by
  have htext : exact x = signedText x.isNegative (if x.parts.significand = 0 then
      Layout.exact.place 0 ['0'] else Layout.exact.numeral (.shortest x.parts)) := by
    simp only [exact, signed, hnan, hinf, Bool.false_eq_true, if_false]
    rfl
  by_cases hzero : x.parts.significand = 0
  · have hleads : Leads 0 ['0'] := .inr ⟨rfl, rfl⟩
    obtain ⟨s, hs, hspells, hwrites⟩ :=
      Layout.place_spells x.isNegative (allDigits_zeros 1) hleads
    refine ⟨s, _, hspells, by rw [htext, if_pos hzero, hs]; rfl, hs, ?_⟩
    rw [numeralOf, if_pos hzero]
    exact hwrites
  · obtain ⟨hdigits, hfirst, zeros, hvalue, hcount⟩ :=
      significantDigits_spec (Numeral.shortest_pos (Nat.pos_of_ne_zero hzero))
    have hleads : Leads (Numeral.shortest x.parts).order _ := .inl hfirst
    obtain ⟨s, hs, hspells, fewer, more, hwrites, hpoint⟩ :=
      Layout.place_spells x.isNegative hdigits hleads
    refine ⟨s, _, hspells, by rw [htext, if_neg hzero, hs]; rfl, hs, fewer + zeros, more, ?_, ?_⟩
    · rw [numeralOf, if_neg hzero, Nat.pow_add, ← Nat.mul_assoc, hwrites]
      dsimp only
      rw [Nat.mul_right_comm, ← hvalue]
    · rw [numeralOf, if_neg hzero]
      simp only [Numeral.order] at hpoint
      omega

end Decimal

end PlanarDrive
