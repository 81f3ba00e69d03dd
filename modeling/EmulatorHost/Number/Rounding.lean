/-!
# Rounding a quotient

* `roundHalfEven n d`: the whole number nearest to `n / d`; a tie goes to the even one.
* **`roundHalfEven_near`**: it lies within half a unit; **`roundHalfEven_tie`**: a tie is even.
-/

namespace EmulatorHost

/-- The whole number nearest to `n / d`, the even one of two. -/
def roundHalfEven (n d : Nat) : Nat :=
  let q := n / d
  let r := n % d
  if 2 * r < d then q
  else if d < 2 * r then q + 1
  else q + q % 2

/-- **The rounded quotient lies within half a unit.** -/
theorem roundHalfEven_near (n : Nat) {d : Nat} (hd : 0 < d) :
    2 * n ≤ (2 * roundHalfEven n d + 1) * d ∧ (2 * roundHalfEven n d) * d ≤ 2 * n + d := by
  have h := Nat.div_add_mod n d
  have hr := Nat.mod_lt n hd
  have hm : ∀ k, (2 * k) * d = 2 * (d * k) := fun k => by rw [Nat.mul_assoc, Nat.mul_comm k d]
  have hq : d * (n / d + 1) = d * (n / d) + d := by rw [Nat.mul_add, Nat.mul_one]
  unfold roundHalfEven
  dsimp only
  rw [Nat.add_mul, Nat.one_mul, hm]
  split
  · omega
  · split
    · omega
    · rcases Nat.mod_two_eq_zero_or_one (n / d) with e | e <;> rw [e]
      · rw [Nat.add_zero]; omega
      · omega

/-- **A tie goes to the even neighbour.** -/
theorem roundHalfEven_tie {n d : Nat} (h : 2 * (n % d) = d) : roundHalfEven n d % 2 = 0 := by
  unfold roundHalfEven
  dsimp only
  rw [if_neg (by omega), if_neg (by omega)]
  omega

theorem roundHalfEven_le (n d : Nat) : roundHalfEven n d ≤ n + 1 := by
  have := Nat.div_le_self n d
  unfold roundHalfEven
  dsimp only
  split
  · omega
  · split <;> omega

theorem roundHalfEven_mul (q : Nat) {d : Nat} (hd : 0 < d) : roundHalfEven (d * q) d = q := by
  simp [roundHalfEven, hd]

end EmulatorHost
