import EmulatorHost.Number.Binary64
import EmulatorHost.Number.Rounding

/-!
# Spans of time

* `Duration`: a whole number of nanoseconds, below `2 ^ 64` seconds.
* `Duration.add?` has no answer past the limit; subtraction stops at zero.
* `Duration.ofSeconds`: a double of seconds, rounded to the nearest nanosecond, ties to even.
* `Duration.toSeconds`: back to a double.
* **`Duration.sub_le`**: a difference is no longer than what it was taken from.
-/

namespace EmulatorHost

/-- A span of time, or a clock reading measured from the clock's origin. -/
@[ext] structure Duration where
  nanos : Nat
  lt_limit : nanos < UInt64.size * 1000000000
  deriving DecidableEq

namespace Duration

/-- The first number of nanoseconds that is too long. -/
def limit : Nat := UInt64.size * 1000000000

/-- No time at all. -/
def zero : Duration := ⟨0, by decide⟩

instance : Inhabited Duration := ⟨zero⟩

/-- A number of nanoseconds, if it is short enough. -/
def ofNanos? (n : Nat) : Option Duration := if h : n < UInt64.size * 1000000000 then some ⟨n, h⟩ else none

/-- A number of nanoseconds. -/
def ofNanos (n : UInt64) : Duration := ⟨n.toNat, Nat.lt_of_lt_of_le n.toNat_lt (by decide)⟩

instance : LE Duration := ⟨fun s t => s.nanos ≤ t.nanos⟩

instance : LT Duration := ⟨fun s t => s.nanos < t.nanos⟩

instance (s t : Duration) : Decidable (s ≤ t) := inferInstanceAs (Decidable (s.nanos ≤ t.nanos))

instance (s t : Duration) : Decidable (s < t) := inferInstanceAs (Decidable (s.nanos < t.nanos))

theorem le_def {s t : Duration} : s ≤ t ↔ s.nanos ≤ t.nanos := Iff.rfl

/-- The shorter of two. -/
def min (s t : Duration) : Duration := if s ≤ t then s else t

/-! ## Arithmetic -/

/-- The sum of two spans, if it is short enough. -/
def add? (s t : Duration) : Option Duration := ofNanos? (s.nanos + t.nanos)

/-- The difference of two spans, zero where the second is longer. -/
def sub (s t : Duration) : Duration := ⟨s.nanos - t.nanos, Nat.lt_of_le_of_lt (Nat.sub_le ..) s.lt_limit⟩

instance : Sub Duration := ⟨sub⟩

@[simp] theorem sub_nanos (s t : Duration) : (s - t).nanos = s.nanos - t.nanos := rfl

/-- **A difference is no longer than what it was taken from.** -/
theorem sub_le (s t : Duration) : s - t ≤ s := Nat.sub_le ..

theorem add?_eq_some_iff {s t u : Duration} : s.add? t = some u ↔ u.nanos = s.nanos + t.nanos := by
  unfold add? ofNanos?
  split
  · rw [Option.some.injEq, Duration.ext_iff]
    exact eq_comm
  · refine ⟨fun h => (Option.some_ne_none u h.symm).elim, fun h => ?_⟩
    exact absurd (h ▸ u.lt_limit) ‹_›

theorem add?_eq_none_iff {s t : Duration} : s.add? t = none ↔ limit ≤ s.nanos + t.nanos := by
  unfold add? ofNanos? limit
  split <;> simp <;> omega

/-- What the division of one second into `n` equal steps leaves for each, for `n` not zero. -/
def perSecond (n : Nat) : Duration :=
  ⟨1000000000 / n, Nat.lt_of_le_of_lt (Nat.div_le_self ..) (by decide)⟩

/-! ## Doubles -/

/-- Why a double of seconds is no span of time. -/
inductive SecondsError where
  | negative
  | tooBig
  deriving DecidableEq, Repr

/-- The text of a failed conversion. -/
def SecondsError.message : SecondsError → String
  | negative => "cannot convert float seconds to Duration: value is negative"
  | tooBig => "cannot convert float seconds to Duration: value is either too big or NaN"

/-- A double of seconds rounded to the nearest nanosecond, ties to even. Zero may carry a sign. -/
def ofSeconds (x : Float) : Except SecondsError Duration :=
  match Binary64.ofFloat x with
  | .nan => .error .tooBig
  | .infinite negative => .error (if negative then .negative else .tooBig)
  | .finite negative m e _ =>
    if negative && m != 0 then .error .negative
    else
      match ofNanos? (roundHalfEven ((m <<< e.toNat) * 1000000000) (1 <<< (-e).toNat)) with
      | some s => .ok s
      | none => .error .tooBig

/-- A double of milliseconds, divided by a thousand first. -/
def ofMillis (ms : Float) : Except SecondsError Duration := ofSeconds (ms / 1000)

/-- The span as a double of seconds: whole seconds plus the double of the rest. -/
def toSeconds (s : Duration) : Float :=
  (UInt64.ofNat (s.nanos / 1000000000)).toFloat + (UInt64.ofNat (s.nanos % 1000000000)).toFloat / 1000000000

/-- The span as a double of milliseconds. -/
def toMillis (s : Duration) : Float := s.toSeconds * 1000

end Duration

end EmulatorHost
