import EmulatorHost.Proofs.Number.Normal

/-!
# Quotients of normal doubles

* `shift_full`, `shift_wide`: how a significand of fifty-three or fifty-four bits is brought to its place.
* **`round_of_shift`**: rounding keeps a full significand in its place.
* **`quotient_bounds`**: the quotient of two full significands, fifty-three bits up, has fifty-three bits or
  fifty-four, and is not the largest number of as many bits.
* **`Normal.div`**: so the exponents tell that of a quotient, up to the order of the significands.
-/

namespace EmulatorHost

open Float.Model Float.Model.UnpackedFloat

/-! ## Rounding to a full significand -/

section Rounding

variable {m : Nat} {e e' : Int} {em : ExtendedMantissa}

theorem roundedMantissa_bounds (em : ExtendedMantissa) :
    em.mantissa ≤ em.roundedMantissa ∧ em.roundedMantissa ≤ em.mantissa + em.roundBit.toNat := by
  rcases em with ⟨m, _ | _, _ | _⟩ <;>
    simp [ExtendedMantissa.roundedMantissa, ExtendedMantissa.accuracy, Accuracy.roundToNearestEven]
  omega

theorem mantissa_shiftRightOne (em : ExtendedMantissa) : em.shiftRightOne.mantissa = em.mantissa / 2 := rfl

theorem roundBit_shiftRightOne (em : ExtendedMantissa) :
    em.shiftRightOne.roundBit.toNat = em.mantissa % 2 := by
  rw [ExtendedMantissa.shiftRightOne]
  rcases Nat.mod_two_eq_zero_or_one em.mantissa with even | odd
  · rw [even]
    rfl
  · rw [odd]
    rfl

theorem mantissa_ofMantissaAndAccuracy (m : Nat) (a : Accuracy) :
    (ExtendedMantissa.ofMantissaAndAccuracy m a).mantissa = m := by
  rcases a with _ | (_ | _ | _) <;> rfl

/-- A significand of `k + 1` bits belongs where fifty-three of them are left. -/
theorem targetExponent_eq {k : Nat} (least : 2 ^ k ≤ m) (most : m < 2 ^ (k + 1)) :
    Format.binary64.targetExponent (totalExponent m e) = max (k + e - 52) (-1074) := by
  have log2 : m.log2 = k := (Nat.log2_eq_iff (by have := Nat.two_pow_pos k; omega)).mpr ⟨least, most⟩
  rw [totalExponent, log2]
  simp only [Format.targetExponent, Format.mantissaBits, Format.minExponent]
  omega

theorem shift_full (h : Full m) (low : -1074 ≤ e) (a : Accuracy) :
    shiftToTargetExponent Format.binary64 m e a = (.ofMantissaAndAccuracy m a, e) := by
  have none : (max ((52 : Nat) + e - 52) (-1074) - e).toNat = 0 := by omega
  rw [shiftToTargetExponent, targetExponent_eq h.least h.most, shiftToExponent, none]
  exact Prod.ext rfl (Int.add_zero e)

theorem shift_wide (least : 2 ^ 53 ≤ m) (most : m < 2 ^ 54) (low : -1074 ≤ e) (a : Accuracy) :
    shiftToTargetExponent Format.binary64 m e a =
      ((ExtendedMantissa.ofMantissaAndAccuracy m a).shiftRightOne, e + 1) := by
  have one : (max ((53 : Nat) + e - 52) (-1074) - e).toNat = 1 := by omega
  rw [shiftToTargetExponent, targetExponent_eq least most, shiftToExponent, one]
  rfl

/-- **A significand that is full once it is rounded stays in its place.** -/
theorem round_of_shift {s : Sign} {a : Accuracy}
    (shift : shiftToTargetExponent Format.binary64 m e a = (em, e')) (h : Full em.roundedMantissa)
    (low : -1074 ≤ e') : roundWithAccuracy Format.binary64 s m e a = .finite s em.roundedMantissa e' h.pos := by
  have same : (ExtendedMantissa.ofMantissaAndAccuracy em.roundedMantissa .exact).mantissa =
      em.roundedMantissa := rfl
  have pos := h.pos
  rw [roundWithAccuracy, shift]
  dsimp only
  rw [shift_full h low, dif_neg (by rw [same]; omega)]
  rfl

end Rounding

/-! ## Dividing -/

/-- The exponent of a quotient of `m * 2 ^ e` and `n * 2 ^ f`, for full significands. -/
def quotientExponent (m : Nat) (e : Int) (n : Nat) (f : Int) : Int :=
  if m < n then e - f - 53 else e - f - 52

variable {x y : Float} {m n : Nat} {e f : Int}

/-- **Fifty-three bits up, the quotient of two full significands has fifty-three bits or fifty-four.** It is
not the largest number of as many bits, so rounding does not take it to the next power of two. -/
theorem quotient_bounds (hm : Full m) (hn : Full n) :
    (m < n → 2 ^ 52 ≤ m * 2 ^ 53 / n ∧ m * 2 ^ 53 / n < 2 ^ 53 - 1) ∧
      (n ≤ m → 2 ^ 53 ≤ m * 2 ^ 53 / n ∧ m * 2 ^ 53 / n < 2 ^ 54 - 1) := by
  obtain ⟨least, most⟩ := hm
  obtain ⟨least', most'⟩ := hn
  refine ⟨fun less => ⟨?_, ?_⟩, fun le => ⟨?_, ?_⟩⟩
  · rw [Nat.le_div_iff_mul_le (by omega)]
    omega
  · rw [Nat.div_lt_iff_lt_mul (by omega)]
    omega
  · rw [Nat.le_div_iff_mul_le (by omega)]
    omega
  · rw [Nat.div_lt_iff_lt_mul (by omega)]
    omega

theorem divCore_full (hm : Full m) (hn : Full n) (low : -1074 ≤ e - f - 53) :
    divCore Format.binary64 m e n f =
      (m * 2 ^ 53 / n, e - f - 53, accuracyOfFraction (m * 2 ^ 53 % n) n) := by
  have target : Format.binary64.targetExponent (totalExponent m e - totalExponent n f) = e - f - 53 := by
    rw [totalExponent, totalExponent, hm.log2_eq, hn.log2_eq]
    simp only [Format.targetExponent, Format.mantissaBits, Format.minExponent]
    omega
  have lower : min (e - f) (e - f - 53) = e - f - 53 := by omega
  have shift : (e - f - (e - f - 53)).toNat = 53 := by omega
  rw [divCore, target, lower, shift, Nat.shiftLeft_eq]

theorem round_quotient (hm : Full m) (hn : Full n) (low : -1074 ≤ e - f - 53) (s : Sign) (a : Accuracy) :
    ∃ q, ∃ h : Full q, roundWithAccuracy Format.binary64 s (m * 2 ^ 53 / n) (e - f - 53) a =
      .finite s q (quotientExponent m e n f) h.pos := by
  obtain ⟨narrow, wide⟩ := quotient_bounds hm hn
  unfold quotientExponent
  generalize m * 2 ^ 53 / n = q at narrow wide
  split_ifs with less
  · obtain ⟨least, most⟩ := narrow less
    obtain ⟨lower, upper⟩ := roundedMantissa_bounds (.ofMantissaAndAccuracy q a)
    have bit := Bool.toNat_le (ExtendedMantissa.ofMantissaAndAccuracy q a).roundBit
    rw [mantissa_ofMantissaAndAccuracy] at lower upper
    have full : Full (ExtendedMantissa.ofMantissaAndAccuracy q a).roundedMantissa := ⟨by omega, by omega⟩
    exact ⟨_, full, round_of_shift (shift_full ⟨least, by omega⟩ low a) full low⟩
  · obtain ⟨least, most⟩ := wide (Nat.le_of_not_lt less)
    obtain ⟨lower, upper⟩ := roundedMantissa_bounds (ExtendedMantissa.ofMantissaAndAccuracy q a).shiftRightOne
    rw [roundBit_shiftRightOne, mantissa_shiftRightOne, mantissa_ofMantissaAndAccuracy] at upper
    rw [mantissa_shiftRightOne, mantissa_ofMantissaAndAccuracy] at lower
    have full : Full (ExtendedMantissa.ofMantissaAndAccuracy q a).shiftRightOne.roundedMantissa :=
      ⟨by omega, by omega⟩
    have up : e - f - 52 = e - f - 53 + 1 := by omega
    rw [up]
    exact ⟨_, full, round_of_shift (shift_wide least (by omega) low a) full (by omega)⟩

/-- **The exponents of two normal doubles tell that of their quotient.** -/
theorem Normal.div (hx : Normal x m e) (hy : Normal y n f) (low : -1074 ≤ e - f - 53) (high : e - f - 52 ≤ 971) :
    ∃ q, Normal (x / y) q (quotientExponent m e n f) := by
  have divided : x / y = .ofModel (.pack (UnpackedFloat.div Format.binary64 x.toModel.unpack y.toModel.unpack)) :=
    rfl
  obtain ⟨q, full, rounded⟩ :=
    round_quotient hx.full hy.full low .positive (accuracyOfFraction (m * 2 ^ 53 % n) n)
  refine ⟨q, ?_⟩
  rw [divided, hx.unpack, hy.unpack, UnpackedFloat.div, divCore_full hx.full hy.full low]
  change Normal (.ofModel (.pack (roundWithAccuracy Format.binary64 .positive _ _ _))) _ _
  rw [rounded]
  refine normal_pack full ?_ ?_
  · unfold quotientExponent
    split_ifs <;> omega
  · unfold quotientExponent
    split_ifs <;> omega

end EmulatorHost
