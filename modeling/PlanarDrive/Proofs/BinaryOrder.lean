import PlanarDrive.Binary64.Arithmetic
import PlanarDrive.Proofs.NumberOrder
import PlanarDrive.Proofs.StoredValues

/-!
# The order of 64-bit numbers

Two numbers compare as less, equal or greater, and turned around as the opposite. Only the two zeros
equal zero. So what holds of all scalars that order their numbers holds of the numbers that programs
run on.
-/

namespace PlanarDrive.Binary64

open Float.Model Float.Model.UnpackedFloat

theorem compare_parts_swap (m n : Nat) (d e : Int) :
    (compare e d).then (compare n m) = ((compare d e).then (compare m n)).swap := by
  rw [Ordering.swap_then, Int.compare_swap, Nat.compare_swap]

theorem compare_swap (a b : UnpackedFloat) : b.compare a = (a.compare b).map Ordering.swap := by
  rcases a with (_ | _) | _ | (_ | _) | ⟨_ | _, m, d, _⟩ <;>
    rcases b with (_ | _) | _ | (_ | _) | ⟨_ | _, n, e, _⟩ <;> try rfl
  · exact congrArg (fun o : Ordering => some o.swap) (compare_parts_swap m n d e)
  · exact congrArg some (compare_parts_swap m n d e)

theorem compare_eq_none_iff {a b : UnpackedFloat} :
    a.compare b = none ↔ a.isNaN = true ∨ b.isNaN = true := by
  rcases a with (_ | _) | _ | (_ | _) | ⟨_ | _, m, d, _⟩ <;>
    rcases b with (_ | _) | _ | (_ | _) | ⟨_ | _, n, e, _⟩ <;>
      simp [UnpackedFloat.compare, UnpackedFloat.isNaN]

def unpacked (x : Binary64) : UnpackedFloat :=
  UnpackedFloat.unpack .binary64 (UnpackedFloat.pack .binary64
    (UnpackedFloat.unpack .binary64 x.bits.toBitVec))

variable {x y : Binary64}

theorem isNaN_eq (x : Binary64) : x.isNaN = x.unpacked.isNaN :=
  rfl

theorem lt_iff_compare : x < y ↔ x.unpacked.compare y.unpacked = some .lt := by
  change decide ((x.unpacked.compare y.unpacked == some .lt) = true) = true ↔ _
  rw [decide_eq_true_iff, beq_iff_eq]

theorem le_iff_compare : x ≤ y ↔ (x.unpacked.compare y.unpacked).any (·.isLE) = true := by
  change decide ((x.unpacked.compare y.unpacked).any (·.isLE) = true) = true ↔ _
  rw [decide_eq_true_iff]

theorem lt_iff_le_not_ge (x y : Binary64) : x < y ↔ x ≤ y ∧ ¬ y ≤ x := by
  rw [lt_iff_compare, le_iff_compare, le_iff_compare, compare_swap x.unpacked]
  cases x.unpacked.compare y.unpacked with
  | none => simp
  | some o => cases o <;> simp

theorem isNaN_of_le (h : x ≤ y) : x.isNaN = false ∧ y.isNaN = false := by
  have hcomparable : ¬ (x.isNaN = true ∨ y.isNaN = true) := by
    rw [isNaN_eq, isNaN_eq, ← compare_eq_none_iff]
    intro hnone
    rw [le_iff_compare, hnone] at h
    cases h
  simpa using hcomparable

theorem le_or_ge (hx : x.isNaN = false) (hy : y.isNaN = false) : x ≤ y ∨ y ≤ x := by
  rw [le_iff_compare, le_iff_compare, compare_swap x.unpacked]
  cases hxy : x.unpacked.compare y.unpacked with
  | none =>
    rw [compare_eq_none_iff, ← isNaN_eq, ← isNaN_eq, hx, hy] at hxy
    simp at hxy
  | some o => cases o <;> simp

theorem beq_iff_compare : (x == y) = true ↔ x.unpacked.compare y.unpacked = some .eq := by
  change (x.unpacked.compare y.unpacked == some .eq) = true ↔ _
  rw [beq_iff_eq]

theorem compare_zero_eq {a : UnpackedFloat} {s : Sign} (h : a.compare (.zero s) = some .eq) :
    ∃ s', a = .zero s' := by
  rcases a with (_ | _) | _ | s' | ⟨_ | _, m, e, _⟩ <;>
    first | exact ⟨_, rfl⟩ | simp [UnpackedFloat.compare] at h

theorem unpack_eq_zero {b : BitVec 64} {s : Sign} (h : UnpackedFloat.unpack .binary64 b = .zero s) :
    @unpackExponent .binary64 b = 0#11 ∧ @unpackMantissa .binary64 b = 0#52 := by
  unfold UnpackedFloat.unpack at h
  simp only at h
  split at h
  · split at h <;> cases h
  · split at h
    · next hexponent =>
      split at h
      · next hmantissa => exact ⟨hexponent, hmantissa⟩
      · cases h
    · cases h

theorem pack_subnormal {s : Sign} {m : BitVec 52} (hm : 0 < m.toNat) :
    UnpackedFloat.pack .binary64 (.finite s m.toNat (-1074) hm) =
      packComponents .binary64 s 0#11 m := by
  have hlog : m.toNat.log2 < 52 := (Nat.log2_lt hm.ne').2 m.isLt
  have hbias : ((-1074 : Int) + (Format.binary64.exponentBias : Int) +
      (Format.binary64.mantissaBitsWithoutImplicit : Int)).toNat = 1 := by decide
  unfold UnpackedFloat.pack
  simp only [hbias]
  rw [if_neg (by decide), if_neg (by rw [show Format.binary64.mantissaBits = 53 from rfl]; omega)]
  exact congrArg _ (BitVec.ofNat_toNat _ m)

theorem pack_normal {s : Sign} {e : BitVec 11} {m : BitVec 52} (hfinite : e ≠ -1#11)
    (hm : 0 < (1#1 ++ m).toNat) :
    UnpackedFloat.pack .binary64 (.finite s (1#1 ++ m).toNat
      ((e.toNat : Int) - ((Format.binary64.exponentBias : Int) + (52 : Nat))) hm) =
        packComponents .binary64 s e m := by
  have hfraction := m.isLt
  have hexponent := e.isLt
  have hlast : e.toNat ≠ 2047 := fun h => hfinite (BitVec.eq_of_toNat_eq h)
  have hvalue : (1#1 ++ m).toNat = 2 ^ 52 + m.toNat := by
    have happend : (1#1 ++ m).toNat = 1 <<< 52 ||| m.toNat := rfl
    rw [happend, ← Nat.shiftLeft_add_eq_or_of_lt m.isLt]
    rfl
  have hlog : (1#1 ++ m).toNat.log2 = 52 := by
    rw [hvalue, Nat.log2_eq_iff (by omega)]
    omega
  have hbias : (((e.toNat : Int) - ((Format.binary64.exponentBias : Int) + (52 : Nat))) +
      (Format.binary64.exponentBias : Int) +
        (Format.binary64.mantissaBitsWithoutImplicit : Int)).toNat = e.toNat := by
    rw [show (Format.binary64.mantissaBitsWithoutImplicit : Int) = 52 from rfl]
    omega
  unfold UnpackedFloat.pack
  simp only [hbias, hlog]
  rw [if_neg (by rw [show 2 ^ Format.binary64.exponentBits = 2048 from rfl]; omega),
    if_pos (show 52 + 1 = Format.binary64.mantissaBits from rfl)]
  have hm' : BitVec.ofNat 52 (1#1 ++ m).toNat = m := by
    apply BitVec.eq_of_toNat_eq
    rw [BitVec.toNat_ofNat, hvalue]
    omega
  exact congrArg₂ _ (BitVec.ofNat_toNat _ e) hm'

/-- Storing a finite number keeps its exponent and its fraction. -/
theorem pack_unpack_finite {b : BitVec 64} (hfinite : @unpackExponent .binary64 b ≠ -1#11) :
    ∃ s, UnpackedFloat.pack .binary64 (UnpackedFloat.unpack .binary64 b) =
      packComponents .binary64 s (@unpackExponent .binary64 b) (@unpackMantissa .binary64 b) := by
  refine ⟨Sign.ofBitVec (@unpackSign .binary64 b), ?_⟩
  unfold UnpackedFloat.unpack
  simp only
  rw [if_neg hfinite]
  split
  · next hzero =>
    rw [hzero]
    split
    · next hnone =>
      rw [hnone]
      rfl
    · exact pack_subnormal _
  · exact pack_normal hfinite _

theorem unpackExponent_of_unpacked {s : Sign} (h : x.unpacked = .zero s) :
    @unpackExponent .binary64 x.bits.toBitVec ≠ -1#11 := by
  have hinfinite (s : Sign) : UnpackedFloat.unpack .binary64 (UnpackedFloat.pack .binary64
      (.infinity s)) = .infinity s := by
    cases s <;> rfl
  intro hall
  have hunpack : UnpackedFloat.unpack .binary64 x.bits.toBitVec = .notANumber ∨
      ∃ s, UnpackedFloat.unpack .binary64 x.bits.toBitVec = .infinity s := by
    unfold UnpackedFloat.unpack
    simp only [hall, if_true]
    split
    · exact .inr ⟨_, rfl⟩
    · exact .inl rfl
  rcases hunpack with hnan | ⟨s, hinf⟩
  · rw [unpacked, hnan] at h
    cases h
  · rw [unpacked, hinf, hinfinite] at h
    cases h

theorem eq_zero_of_beq (h : (x == 0.0) = true) : x = 0.0 ∨ x = -0.0 := by
  obtain ⟨s, hzero⟩ := compare_zero_eq (beq_iff_compare.1 h)
  obtain ⟨s', hpack⟩ := pack_unpack_finite (unpackExponent_of_unpacked hzero)
  have hfields := unpack_eq_zero hzero
  rw [hpack, unpackExponent_packComponents, unpackMantissa_packComponents] at hfields
  have hexponent : x.bits.toNat / 2 ^ 52 % 2 ^ 11 = 0 := by
    have hnat := congrArg BitVec.toNat hfields.1
    simpa [unpackExponent, Nat.shiftRight_eq_div_pow] using hnat
  have hfraction : x.bits.toNat % 2 ^ 52 = 0 := by
    have hnat := congrArg BitVec.toNat hfields.2
    simpa [unpackMantissa] using hnat
  have hlt := x.bits.toNat_lt
  have hcases : x.bits.toNat = 0 ∨ x.bits.toNat = 0x8000000000000000 := by omega
  obtain ⟨bits⟩ := x
  exact hcases.imp (fun h => congrArg mk (UInt64.toNat_inj.1 h))
    fun h => congrArg mk (UInt64.toNat_inj.1 h)

/-- 64-bit numbers, the infinite ones included, are ordered, and what is no number is not. -/
instance : Scalar.OrdersNumbers Binary64 where
  lt_iff_le_not_ge := lt_iff_le_not_ge
  isNaN_of_le := isNaN_of_le
  le_total := le_or_ge
  isNaN_zero := by decide
  abs_lt_of_isZero h := by
    rcases eq_zero_of_beq h with rfl | rfl <;> decide

end PlanarDrive.Binary64
