import EmulatorHost.Config.Text
import EmulatorHost.Proofs.Number.Quotient

/-!
# Intervals that can be used

A configuration is accepted if its intervals are finite and at least a microsecond. A span of time is below
`2 ^ 64` seconds, so not every interval that is accepted is one.

* `tooLong`: the least double of milliseconds that is no span.
* **`Normal.ofSeconds_iff`**, **`Normal.ofMillis_iff`**: which normal doubles are spans.
* **`Config.converts_of_accepted`**: the intervals of an accepted configuration convert where they are below
  it. `Config.not_converts`: the validation does not ask for that.
-/

namespace EmulatorHost

/-- `2 ^ 64` seconds, in milliseconds. -/
def tooLong : Float := 18446744073709551616000

/-! ## Spans -/

namespace Duration

variable {x : Float} {m : Nat} {e : Int}

theorem ofNanos?_isSome_iff {n : Nat} : (ofNanos? n).isSome = true ↔ n < UInt64.size * 1000000000 := by
  unfold ofNanos?
  split_ifs with short
  · simpa
  · simpa using short

theorem ofSeconds_iff {narrow : Bool} (parts : Binary64.ofFloat x = .finite false m e narrow) :
    (∃ s, ofSeconds x = .ok s) ↔
      roundHalfEven ((m <<< e.toNat) * 1000000000) (1 <<< (-e).toNat) < UInt64.size * 1000000000 := by
  rw [← ofNanos?_isSome_iff, ofSeconds, parts]
  dsimp only
  rw [Bool.false_and, if_neg Bool.false_ne_true]
  cases ofNanos? (roundHalfEven ((m <<< e.toNat) * 1000000000) (1 <<< (-e).toNat)) <;> simp

end Duration

variable {x : Float} {m : Nat} {e : Int}

/-- **A normal double of seconds is a span if it is below `2 ^ 64`**, as it is up to the exponent `11`. -/
theorem Normal.ofSeconds_iff (h : Normal x m e) : (∃ s, Duration.ofSeconds x = .ok s) ↔ e ≤ 11 := by
  obtain ⟨narrow, parts⟩ := h.parts
  have least := h.full.least
  have most := h.full.most
  have size : UInt64.size = 2 ^ 64 := rfl
  rw [Duration.ofSeconds_iff parts, size]
  rcases Int.lt_or_le e 0 with below | above
  · have whole : m <<< e.toNat = m := by
      rw [Int.toNat_of_nonpos (by omega)]
      rfl
    have := roundHalfEven_le (m * 1000000000) (1 <<< (-e).toNat)
    rw [whole]
    constructor <;> omega
  · have one : 1 <<< (-e).toNat = 1 := by
      rw [Int.toNat_of_nonpos (by omega)]
      rfl
    have same : roundHalfEven ((m <<< e.toNat) * 1000000000) 1 = (m <<< e.toNat) * 1000000000 := by
      simpa using roundHalfEven_mul ((m <<< e.toNat) * 1000000000) Nat.one_pos
    rw [one, same, Nat.shiftLeft_eq]
    rcases Int.lt_or_le 11 e with high | low
    · have large : 2 ^ 12 ≤ 2 ^ e.toNat := Nat.pow_le_pow_right (by decide) (by omega)
      have := Nat.mul_le_mul least large
      exact iff_of_false (by omega) (by omega)
    · have small : 2 ^ e.toNat ≤ 2 ^ 11 := Nat.pow_le_pow_right (by decide) (by omega)
      have := Nat.mul_le_mul (Nat.le_sub_one_of_lt most) small
      exact iff_of_true (by omega) low

theorem normal_thousand : Normal 1000 (1000 * 2 ^ 43) (-43) :=
  .of_parts false (by decide +kernel) (.inr (by decide))

theorem normal_tooLong : Normal tooLong (1000 * 2 ^ 43) 21 :=
  .of_parts false (by decide +kernel) (.inr (by decide))

theorem normal_microsecond : Normal 0.001 0x10624dd2f1a9fc (-62) :=
  .of_parts false (by decide +kernel) (.inr (by decide))

/-- **A normal double of milliseconds is a span if it is not too long.** -/
theorem Normal.ofMillis_iff (h : Normal x m e) (low : -62 ≤ e) :
    (∃ s, Duration.ofMillis x = .ok s) ↔ x < tooLong := by
  have high := h.high
  obtain ⟨q, quotient⟩ := h.div normal_thousand (by omega) (by omega)
  rw [Duration.ofMillis, quotient.ofSeconds_iff, h.lt_iff normal_tooLong, quotientExponent]
  split_ifs <;> omega

namespace Config

variable {millis : Float} {c : Config}

theorem ofMillis_iff_of_usable (h : usable millis = true) :
    (∃ s, Duration.ofMillis millis = .ok s) ↔ millis < tooLong := by
  obtain ⟨finite, le⟩ := Bool.and_eq_true_iff.mp h
  obtain ⟨m, e, normal, low⟩ := normal_microsecond.of_le finite (of_decide_eq_true le)
  exact normal.ofMillis_iff low

theorem ofJson_ok_iff {text : String} : ofJson text = .ok c ↔ parse text = .ok c ∧ c.validate = .ok () := by
  unfold ofJson
  cases parse text with
  | error cause => simp [Except.mapError, bind, Except.bind]
  | ok d =>
    dsimp only [Except.mapError, bind, Except.bind]
    constructor
    · intro accepted
      cases passed : d.validate with
      | error reason =>
        rw [passed] at accepted
        cases accepted
      | ok u =>
        rw [passed] at accepted
        cases accepted
        exact ⟨rfl, passed⟩
    · rintro ⟨⟨⟩, passed⟩
      rw [passed]
      rfl

theorem cadence_of_span {span : Duration} (core : StepUnit) (set : c.emulationMillis = some millis)
    (converted : Duration.ofMillis millis = .ok span) : c.cadence core = .ok ⟨span, c.stepUnitFor core⟩ := by
  rw [cadence, set]
  dsimp only
  rw [Cadence.ofMillis, converted]
  rfl

theorem cadence_of_error {reason : Duration.SecondsError} (core : StepUnit)
    (set : c.emulationMillis = some millis) (failed : Duration.ofMillis millis = .error reason) :
    c.cadence core = .error (.interval millis) := by
  rw [cadence, set]
  dsimp only
  rw [Cadence.ofMillis, failed]
  rfl

/-- **The intervals of an accepted configuration convert where they are not too long.** The configuration
gives a cadence exactly if its emulation interval is not set or below `2 ^ 64` seconds, and otherwise says
which interval it is. Its refresh interval is a span if it is below `2 ^ 64` seconds. -/
theorem converts_of_accepted (c : Config) (accepted : (∃ text, ofJson text = .ok c) ∨ c.validate = .ok ())
    (core : StepUnit) :
    ((∃ cadence, c.cadence core = .ok cadence) ↔ ∀ millis ∈ c.emulationMillis, millis < tooLong) ∧
      (∀ millis ∈ c.emulationMillis, ¬ millis < tooLong → c.cadence core = .error (.interval millis)) ∧
      (c.refreshMillis < tooLong → ∃ span, c.refreshInterval = .ok span) := by
  have passed : c.validate = .ok () := by
    rcases accepted with ⟨text, read⟩ | passed
    · exact (ofJson_ok_iff.mp read).2
    · exact passed
  obtain ⟨emulation, refresh⟩ := (validate_ok_iff c).mp passed
  have failed : ∀ millis ∈ c.emulationMillis, ¬ millis < tooLong → c.cadence core = .error (.interval millis) := by
    intro millis set long
    cases converted : Duration.ofMillis millis with
    | error reason => exact cadence_of_error core set converted
    | ok span => exact absurd ((ofMillis_iff_of_usable (emulation millis set)).mp ⟨span, converted⟩) long
  refine ⟨⟨?_, fun short => ?_⟩, failed, (ofMillis_iff_of_usable refresh).mpr⟩
  · rintro ⟨cadence, converted⟩ millis set
    refine Decidable.byContradiction fun long => ?_
    rw [failed millis set long] at converted
    cases converted
  · cases set : c.emulationMillis with
    | none => exact ⟨.forUnit (c.stepUnitFor core), by rw [cadence, set]⟩
    | some millis =>
      obtain ⟨span, converted⟩ := (ofMillis_iff_of_usable (emulation millis set)).mpr (short millis set)
      exact ⟨_, cadence_of_span core set converted⟩

/-- A text with an emulation interval that is too long, and a refresh interval that is not. -/
def longText : String :=
  "\x7b\"emulation_interval_ms\":1e23,\"refresh_interval_ms\":1.8e22\x7d"

/-- What `longText` says. -/
def long : Config := { standard with emulationMillis := some 1e23, refreshMillis := 1.8e22 }

theorem ofJson_longText : ofJson longText = .ok long := by decide +kernel

theorem converts_of_accepted_long : ofJson longText = .ok long ∧ long.cadence .frame = .error (.interval 1e23) ∧
    ∃ span, long.refreshInterval = .ok span := by
  have tooLong_le : ¬ (1e23 : Float) < tooLong := by decide +kernel
  have lt_tooLong : long.refreshMillis < tooLong := by decide +kernel
  obtain ⟨-, failed, refresh⟩ := converts_of_accepted long (.inl ⟨longText, ofJson_longText⟩) .frame
  exact ⟨ofJson_longText, failed 1e23 rfl tooLong_le, refresh lt_tooLong⟩

/-- A text with a refresh interval that is too long. -/
def rareText : String := "\x7b\"refresh_interval_ms\":1e23\x7d"

/-- Not every configuration that is accepted gives a cadence, and not every one a refresh interval. -/
theorem not_converts :
    (¬ ∀ c : Config, (∃ text, ofJson text = .ok c) → ∀ core : StepUnit, ∃ cadence, c.cadence core = .ok cadence) ∧
    ¬ ∀ c : Config, (∃ text, ofJson text = .ok c) → ∃ span, c.refreshInterval = .ok span := by
  constructor
  · intro converts
    have failed : long.cadence .frame = .error (.interval 1e23) := by decide +kernel
    obtain ⟨cadence, converted⟩ := converts long ⟨longText, ofJson_longText⟩ .frame
    rw [failed] at converted
    cases converted
  · intro converts
    have read : ofJson rareText = .ok { standard with refreshMillis := 1e23 } := by decide +kernel
    have failed : ({ standard with refreshMillis := 1e23 } : Config).refreshInterval.isOk = false := by decide +kernel
    obtain ⟨span, converted⟩ := converts _ ⟨rareText, read⟩
    rw [converted] at failed
    cases failed

end Config

end EmulatorHost
