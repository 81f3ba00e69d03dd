import EmulatorHost.Number.Binary64
import Mathlib

/-!
# Normal doubles

* `Binary64.Agrees`: a double taken apart by its bits and as its arithmetic does;
  **`Binary64.agrees`**: both come to the same.
* `Full`: a significand that fills its fifty-three bits. `Normal`: a positive double with such a one.
* **`normal_pack`**: a full significand and an exponent in range make a normal double.
* **`Normal.lt_iff`**: of two normal doubles, the exponents are compared first; **`Normal.of_le`**: no finite
  double above a normal one is subnormal.
-/

namespace EmulatorHost

open Float.Model Float.Model.UnpackedFloat

/-! ## Two ways to take a double apart -/

/-- The parts say the same about a double. -/
def Binary64.Agrees : Binary64 → UnpackedFloat → Prop
  | nan, .notANumber => True
  | infinite negative, .infinity s => s.toBitVec = BitVec.ofBool negative
  | finite negative m _ _, .zero s => s.toBitVec = BitVec.ofBool negative ∧ m = 0
  | finite negative m e _, .finite s m' e' _ => s.toBitVec = BitVec.ofBool negative ∧ m' = m ∧ e' = e
  | _, _ => False

section Fields

variable (b : BitVec 64)

theorem toNat_unpackExponent : (@unpackExponent Format.binary64 b).toNat = b.toNat >>> 52 % 2048 := by
  simp [unpackExponent]

theorem toNat_unpackMantissa : (@unpackMantissa Format.binary64 b).toNat = b.toNat % 2 ^ 52 := by
  simp [unpackMantissa]

theorem toNat_unpackSign : (@unpackSign Format.binary64 b).toNat = b.toNat >>> 63 := by
  have := b.isLt
  simp [unpackSign, Nat.shiftRight_eq_div_pow]
  omega

theorem toNat_implicit (M : BitVec 52) : (1#1 ++ M).toNat = 2 ^ 52 + M.toNat := by
  rw [BitVec.toNat_append, ← Nat.shiftLeft_add_eq_or_of_lt M.isLt]
  rfl

end Fields

/-- **A double is taken apart by its bits as its arithmetic takes it apart.** -/
theorem Binary64.agrees (x : Float) : (ofFloat x).Agrees x.toModel.unpack := by
  have exponent : (@unpackExponent Format.binary64 x.toBits.toBitVec).toNat =
      x.toBits.toNat >>> 52 % 2048 := toNat_unpackExponent _
  have mantissa : (@unpackMantissa Format.binary64 x.toBits.toBitVec).toNat = x.toBits.toNat % 2 ^ 52 :=
    toNat_unpackMantissa _
  have sign : (Sign.ofBitVec (@unpackSign Format.binary64 x.toBits.toBitVec)).toBitVec =
      BitVec.ofBool (x.toBits.toNat >>> 63 == 1) := by
    have stored : (@unpackSign Format.binary64 x.toBits.toBitVec).toNat = x.toBits.toNat >>> 63 :=
      toNat_unpackSign _
    rw [Sign.toBitVec_ofBitVec, ← stored]
    generalize @unpackSign Format.binary64 x.toBits.toBitVec = s
    revert s
    decide
  have ones : (-1#11).toNat = 2047 := rfl
  have bias : (Format.binary64.exponentBias : Int) + (52 : Nat) = 1075 := rfl
  change (ofBits x.toBits).Agrees (UnpackedFloat.unpack Format.binary64 x.toBits.toBitVec)
  rw [ofBits, UnpackedFloat.unpack]
  simp only [← BitVec.toNat_inj, exponent, mantissa, toNat_implicit, ones, bias, BitVec.toNat_zero]
  -- now both sides ask the same of the same numbers
  change (if x.toBits.toNat >>> 52 % 2048 = 2047 then
      if x.toBits.toNat % 2 ^ 52 = 0 then infinite _ else nan
    else if x.toBits.toNat >>> 52 % 2048 = 0 then finite _ _ _ _ else finite _ _ _ _ : Binary64).Agrees _
  split_ifs with top none low none
  · exact sign
  · trivial
  · exact ⟨sign, none⟩
  · refine ⟨sign, rfl, ?_⟩
    rw [low]
    rfl
  · exact ⟨sign, rfl, rfl⟩

theorem Binary64.finite_bounds {x : Float} {negative narrow : Bool} {m : Nat} {e : Int}
    (h : ofFloat x = .finite negative m e narrow) :
    m < 2 ^ 53 ∧ -1074 ≤ e ∧ e ≤ 971 ∧ (2 ^ 52 ≤ m ∨ e = -1074) := by
  have fraction : x.toBits.toNat % (1 <<< 52) < 2 ^ 52 := Nat.mod_lt _ (Nat.two_pow_pos 52)
  have implicit : 1 <<< 52 = 2 ^ 52 := rfl
  rw [ofFloat, ofBits] at h
  split_ifs at h with top none low
  · cases h
    omega
  · cases h
    omega

/-! ## Normal doubles -/

/-- The significand fills its fifty-three bits. -/
structure Full (m : Nat) : Prop where
  least : 2 ^ 52 ≤ m
  most : m < 2 ^ 53

/-- The double is `m * 2 ^ e`, positive and with a full significand. -/
structure Normal (x : Float) (m : Nat) (e : Int) : Prop where
  full : Full m
  low : -1074 ≤ e
  high : e ≤ 971
  parts : ∃ narrow, Binary64.ofFloat x = .finite false m e narrow

theorem Full.log2_eq {m : Nat} (h : Full m) : m.log2 = 52 :=
  (Nat.log2_eq_iff (by have := h.least; omega)).mpr ⟨h.least, h.most⟩

theorem Full.pos {m : Nat} (h : Full m) : 0 < m := by
  have := h.least
  omega

variable {x y : Float} {m n : Nat} {e f : Int}

theorem Normal.of_parts (narrow : Bool) (h : Binary64.ofFloat x = .finite false m e narrow)
    (least : 2 ^ 52 ≤ m ∨ e ≠ -1074) : Normal x m e := by
  obtain ⟨most, low, high, full⟩ := Binary64.finite_bounds h
  exact ⟨⟨by omega, most⟩, low, high, narrow, h⟩

theorem Normal.unpack (h : Normal x m e) : x.toModel.unpack = .finite .positive m e h.full.pos := by
  obtain ⟨narrow, parts⟩ := h.parts
  have pos := h.full.pos
  have agrees := Binary64.agrees x
  rw [parts] at agrees
  revert agrees
  cases x.toModel.unpack with
  | finite s m' e' pos' =>
    rintro ⟨sign, rfl, rfl⟩
    cases s with
    | positive => rfl
    | negative => cases sign
  | zero s =>
    rintro ⟨-, rfl⟩
    cases pos
  | infinity s => exact False.elim
  | notANumber => exact False.elim

theorem normal_of_unpack (pos : 0 < m) (h : x.toModel.unpack = .finite .positive m e pos)
    (least : 2 ^ 52 ≤ m ∨ e ≠ -1074) : Normal x m e := by
  have agrees := Binary64.agrees x
  rw [h] at agrees
  cases parts : Binary64.ofFloat x with
  | finite negative m' e' narrow =>
    rw [parts] at agrees
    obtain ⟨sign, rfl, rfl⟩ := agrees
    cases negative with
    | false => exact .of_parts narrow parts least
    | true => cases sign
  | nan => exact (parts ▸ agrees).elim
  | infinite negative => exact (parts ▸ agrees).elim

/-- **A full significand and an exponent in range make a normal double.** -/
theorem normal_pack (h : Full m) (low : -1074 ≤ e) (high : e ≤ 971) :
    Normal (.ofModel (.pack (.finite .positive m e h.pos))) m e := by
  have bits : m.log2 + 1 = Format.binary64.mantissaBits := congrArg (· + 1) h.log2_eq
  have fits : ¬ 2 ^ 11 ≤ (e + 1023 + 52).toNat + 1 := by omega
  have packed : UnpackedFloat.pack Format.binary64 (.finite .positive m e h.pos) =
      packComponents Format.binary64 .positive (BitVec.ofNat 11 (e + 1023 + 52).toNat) (BitVec.ofNat 52 m) := by
    rw [UnpackedFloat.pack]
    exact (if_neg fits).trans (if_pos bits)
  have exponent : (BitVec.ofNat 11 (e + 1023 + 52).toNat).toNat = (e + 1075).toNat := by
    rw [BitVec.toNat_ofNat]
    omega
  have whole : (1#1 ++ BitVec.ofNat 52 m).toNat = m := by
    have := h.least
    have := h.most
    rw [toNat_implicit, BitVec.toNat_ofNat]
    omega
  have zeros : ¬ (e + 1075).toNat = (0#11).toNat := by
    rw [BitVec.toNat_zero]
    omega
  have ones : ¬ (e + 1075).toNat = (-1#11).toNat := by
    change ¬ (e + 1075).toNat = 2047
    omega
  have unbiased : ((e + 1075).toNat : Int) - (Format.binary64.exponentBias + (52 : Nat)) = e := by
    change ((e + 1075).toNat : Int) - 1075 = e
    omega
  refine normal_of_unpack h.pos ?_ (.inl h.least)
  change UnpackedFloat.unpack Format.binary64 (UnpackedFloat.pack Format.binary64 (.finite .positive m e h.pos)) = _
  rw [packed, UnpackedFloat.unpack]
  simp only [unpackExponent_packComponents, unpackMantissa_packComponents, unpackSign_packComponents,
    ← BitVec.toNat_inj, exponent, whole, if_neg zeros, if_neg ones, unbiased]
  rfl

/-! ## Comparing them -/

theorem float_lt_iff (x y : Float) : x < y ↔ x.toModel.unpack.lt y.toModel.unpack = true :=
  decide_eq_true_iff (p := x.toModel < y.toModel)

theorem float_le_iff (x y : Float) : x ≤ y ↔ x.toModel.unpack.le y.toModel.unpack = true :=
  decide_eq_true_iff (p := x.toModel ≤ y.toModel)

/-- **Of two normal doubles, the exponents are compared first.** -/
theorem Normal.lt_iff (hx : Normal x m e) (hy : Normal y n f) : x < y ↔ e < f ∨ e = f ∧ m < n := by
  rw [float_lt_iff, hx.unpack, hy.unpack, UnpackedFloat.lt, UnpackedFloat.compare]
  simp [Ordering.then_eq_lt, Int.compare_eq_lt, Nat.compare_eq_lt]

/-- **A finite double above a normal one is normal.** -/
theorem Normal.of_le (hx : Normal x m e) (finite : y.isFinite = true) (le : x ≤ y) :
    ∃ n f, Normal y n f ∧ e ≤ f := by
  have low := hx.low
  have least := hx.full.least
  change y.toModel.unpack.isFinite = true at finite
  rw [float_le_iff, hx.unpack] at le
  cases hy : y.toModel.unpack with
  | notANumber => rw [hy] at finite; cases finite
  | infinity s => rw [hy] at finite; cases finite
  | zero s => rw [hy] at le; cases s <;> cases le
  | finite s n f pos =>
    rw [hy] at le
    cases s with
    | negative => cases le
    | positive =>
      have above : e < f ∨ e = f ∧ m ≤ n := by
        rw [UnpackedFloat.le, UnpackedFloat.compare] at le
        simpa [Ordering.isLE_then_iff_or, Int.compare_eq_lt, Nat.isLE_compare] using le
      exact ⟨n, f, normal_of_unpack pos hy (by omega), by omega⟩

end EmulatorHost
