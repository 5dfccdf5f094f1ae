import Mathlib
import PlanarDrive.Json.Reader
import PlanarDrive.Json.Writer

/-!
# Values that can be stored

What is written as JSON is read back if it is not nested too deep, its integers are not too long,
and its records have no name twice. Every number is stored as it is, the infinite ones as well; of
what is no number only this fact is stored.
-/

namespace PlanarDrive

namespace Binary64

section Unpacked

open Float.Model Float.Model.UnpackedFloat

/-- An infinite number has every bit of its exponent and none of its fraction. -/
theorem isInf_unpack_iff {b : BitVec 64} :
    (UnpackedFloat.unpack .binary64 b).isInf = true ↔
      @unpackExponent .binary64 b = -1#11 ∧
        @unpackMantissa .binary64 b = 0#52 := by
  unfold UnpackedFloat.unpack
  simp only
  split
  · next he =>
    split
    · next hm => exact iff_of_true rfl ⟨he, hm⟩
    · next hm => exact iff_of_false Bool.false_ne_true fun h => hm h.2
  · next he =>
    refine iff_of_false ?_ fun h => he h.1
    split
    · split <;> exact Bool.false_ne_true
    · exact Bool.false_ne_true

theorem isInf_pack_finite {s : Sign} {m : Nat} {e : Int} (hm : 0 < m)
    (he : (e + 1075).toNat < 2047) :
    (UnpackedFloat.unpack .binary64 (UnpackedFloat.pack .binary64 (.finite s m e hm))).isInf =
      false := by
  have hparts {e : BitVec 11} {m : BitVec 52} (h : e ≠ -1#11) :
      (UnpackedFloat.unpack .binary64 (packComponents .binary64 s e m)).isInf = false := by
    rw [← Bool.not_eq_true, isInf_unpack_iff, unpackExponent_packComponents]
    exact fun hboth => h hboth.1
  have hbias : (e + (Format.binary64.exponentBias : Int) + 52).toNat < 2047 := by
    rw [show (Format.binary64.exponentBias : Int) = 1023 from rfl]
    omega
  unfold UnpackedFloat.pack
  simp only
  rw [if_neg (by omega)]
  split
  · refine hparts fun h => ?_
    have hnat := congrArg BitVec.toNat h
    rw [BitVec.toNat_ofNat, Nat.mod_eq_of_lt (by omega)] at hnat
    exact absurd hnat (by simp; omega)
  · exact hparts (by decide)

/-- Storing a number neither makes it infinite nor finite. -/
theorem isInf_unpack_pack (b : BitVec 64) :
    (UnpackedFloat.unpack .binary64 (UnpackedFloat.pack .binary64
      (UnpackedFloat.unpack .binary64 b))).isInf = (UnpackedFloat.unpack .binary64 b).isInf := by
  generalize hu : UnpackedFloat.unpack .binary64 b = u
  cases u with
  | infinity s => cases s <;> rfl
  | notANumber => rfl
  | zero s => cases s <;> rfl
  | finite s m e hm =>
    refine isInf_pack_finite hm ?_
    have hexponent := (@unpackExponent .binary64 b).isLt
    unfold UnpackedFloat.unpack at hu
    simp only at hu
    split at hu
    · split at hu <;> cases hu
    · next hne =>
      have hlast : (@unpackExponent .binary64 b).toNat ≠ 2047 := fun h =>
        hne (BitVec.eq_of_toNat_eq h)
      have hbias : (Format.binary64.exponentBias : Int) = 1023 := rfl
      split at hu
      · next hzero =>
        split at hu
        · cases hu
        · injection hu with _ _ he
          simp only [hzero, hbias] at he
          have : (e + 1075).toNat = 1 := by rw [← he]; rfl
          omega
      · injection hu with _ _ he
        rw [hbias] at he
        have h52 : (Format.binary64.mantissaBitsWithoutImplicit : Int) = 52 := rfl
        rw [h52] at he
        have h11 : 2 ^ Format.binary64.exponentBits = 2048 := rfl
        omega

end Unpacked

theorem eq_infinity_of_isInfinite {x : Binary64} (h : x.isInfinite = true) :
    x = infinity ∨ x = -infinity := by
  have hbits : (Float.Model.UnpackedFloat.unpack .binary64 x.bits.toBitVec).isInf = true :=
    (isInf_unpack_pack x.bits.toBitVec).symm.trans h
  obtain ⟨he, hm⟩ := isInf_unpack_iff.1 hbits
  have hexponent : x.bits.toNat / 2 ^ 52 % 2 ^ 11 = 2047 := by
    have hnat := congrArg BitVec.toNat he
    simpa [Float.Model.UnpackedFloat.unpackExponent, Nat.shiftRight_eq_div_pow] using hnat
  have hfraction : x.bits.toNat % 2 ^ 52 = 0 := by
    have hnat := congrArg BitVec.toNat hm
    simpa [Float.Model.UnpackedFloat.unpackMantissa] using hnat
  have hlt := x.bits.toNat_lt
  have hcases : x.bits.toNat = 0x7ff0000000000000 ∨ x.bits.toNat = 0xfff0000000000000 := by omega
  obtain ⟨bits⟩ := x
  exact hcases.imp (fun h => congrArg mk (UInt64.toNat_inj.1 h))
    fun h => congrArg mk (UInt64.toNat_inj.1 h)

def canonical (x : Binary64) : Binary64 :=
  if x.isNaN then notANumber else x

theorem canonical_of_isNaN {x : Binary64} (h : x.isNaN = true) : x.canonical = notANumber :=
  if_pos h

@[simp] theorem canonical_of_not_isNaN {x : Binary64} (h : x.isNaN = false) : x.canonical = x :=
  if_neg (Bool.not_eq_true _ ▸ h)

end Binary64

namespace Value

mutual

/-- The value that is read where this one was written: it differs in what is no number only. -/
def canonical : Value → Value
  | .float x => .float x.canonical
  | .list items => .list (canonicalItems items)
  | .record fields => .record (canonicalFields fields)
  | v => v

def canonicalItems : List Value → List Value
  | [] => []
  | v :: rest => v.canonical :: canonicalItems rest

def canonicalFields : List (String × Value) → List (String × Value)
  | [] => []
  | (n, v) :: rest => (n, v.canonical) :: canonicalFields rest

end

theorem canonicalItems_eq_map (items : List Value) :
    canonicalItems items = items.map canonical := by
  induction items with
  | nil => rfl
  | cons v rest ih => rw [canonicalItems, ih, List.map_cons]

theorem canonicalFields_eq_map (fields : List (String × Value)) :
    canonicalFields fields = fields.map fun f => (f.1, f.2.canonical) := by
  induction fields with
  | nil => rfl
  | cons f rest ih => rw [canonicalFields, ih, List.map_cons]

/-- Nested up to a depth, a value is written so that it can be read. -/
inductive Storable : Nat → Value → Prop
  | null (depth : Nat) : Storable depth .null
  | bool (depth : Nat) (b : Bool) : Storable depth (.bool b)
  | int (depth : Nat) {n : Int} (short : (Decimal.digits n.natAbs).length ≤ Decimal.digitLimit) :
    Storable depth (.int n)
  | float (depth : Nat) (x : Binary64) : Storable depth (.float x)
  | text (depth : Nat) (s : String) : Storable depth (.text s)
  | list {depth : Nat} {items : List Value} (inside : ∀ v ∈ items, Storable depth v) :
    Storable (depth + 1) (.list items)
  | record {depth : Nat} {fields : List (String × Value)} (names : (fields.map Prod.fst).Nodup)
    (inside : ∀ f ∈ fields, Storable depth f.2) : Storable (depth + 1) (.record fields)

mutual

def isStorable : Nat → Value → Bool
  | _, .int n => (Decimal.digits n.natAbs).length ≤ Decimal.digitLimit
  | 0, .list _ | 0, .record _ => false
  | depth + 1, .list items => areStorable depth items
  | depth + 1, .record fields => (fields.map Prod.fst).Nodup && haveStorable depth fields
  | _, _ => true

def areStorable : Nat → List Value → Bool
  | _, [] => true
  | depth, v :: rest => isStorable depth v && areStorable depth rest

def haveStorable : Nat → List (String × Value) → Bool
  | _, [] => true
  | depth, (_, v) :: rest => isStorable depth v && haveStorable depth rest

end

mutual

theorem storable_of_isStorable : ∀ (v : Value) (depth : Nat), isStorable depth v = true →
    v.Storable depth
  | .null, depth, _ => .null depth
  | .bool b, depth, _ => .bool depth b
  | .int n, depth, h => .int depth (by simpa [isStorable] using h)
  | .float x, depth, _ => .float depth x
  | .text s, depth, _ => .text depth s
  | .list items, 0, h => by simp [isStorable] at h
  | .list items, depth + 1, h => .list (storable_of_areStorable items depth h)
  | .record fields, 0, h => by simp [isStorable] at h
  | .record fields, depth + 1, h => by
    simp only [isStorable, Bool.and_eq_true, decide_eq_true_eq] at h
    exact .record h.1 (storable_of_haveStorable fields depth h.2)

theorem storable_of_areStorable : ∀ (items : List Value) (depth : Nat),
    areStorable depth items = true → ∀ v ∈ items, v.Storable depth
  | [], _, _ => by simp
  | v :: rest, depth, h => by
    simp only [areStorable, Bool.and_eq_true] at h
    exact List.forall_mem_cons.2
      ⟨storable_of_isStorable v depth h.1, storable_of_areStorable rest depth h.2⟩

theorem storable_of_haveStorable : ∀ (fields : List (String × Value)) (depth : Nat),
    haveStorable depth fields = true → ∀ f ∈ fields, f.2.Storable depth
  | [], _, _ => by simp
  | (n, v) :: rest, depth, h => by
    simp only [haveStorable, Bool.and_eq_true] at h
    exact List.forall_mem_cons.2
      ⟨storable_of_isStorable v depth h.1, storable_of_haveStorable rest depth h.2⟩

end

theorem insertField_of_notMem {name : String} {fields : List (String × Value)}
    (h : name ∉ fields.map Prod.fst) (v : Value) :
    insertField name v fields = fields ++ [(name, v)] := by
  induction fields with
  | nil => rfl
  | cons f rest ih =>
    obtain ⟨n, w⟩ := f
    rw [List.map_cons, List.mem_cons, not_or] at h
    rw [insertField, if_neg fun heq => h.1 heq.symm, ih h.2]
    rfl

/-- A record without a repeated name has just the fields that were written. -/
theorem ofFields_of_nodup {fields : List (String × Value)} (h : (fields.map Prod.fst).Nodup) :
    ofFields fields = .record fields := by
  have hall (done : List (String × Value)) (h : ((done ++ fields).map Prod.fst).Nodup) :
      fields.foldl (fun r f => insertField f.1 f.2 r) done = done ++ fields := by
    induction fields generalizing done with
    | nil => simp
    | cons f rest ih =>
      have hnew : f.1 ∉ done.map Prod.fst := by
        rw [List.map_append, List.map_cons, List.nodup_append] at h
        exact fun hmem => h.2.2 _ hmem _ List.mem_cons_self rfl
      rw [List.foldl_cons, insertField_of_notMem hnew,
        ih (by simp_all [List.nodup_append]) _ (by simpa using h)]
      simp
  rw [ofFields, hall [] h, List.nil_append]

theorem canonicalFields_nodup {fields : List (String × Value)}
    (h : (fields.map Prod.fst).Nodup) : ((canonicalFields fields).map Prod.fst).Nodup := by
  rw [canonicalFields_eq_map, List.map_map]
  exact h

end Value

end PlanarDrive
