/-!
# The exact value of a double

* `Binary64`: a double taken apart into sign, whole significand and power of two.
* `Binary64.ofFloat` reads the bits; a finite double is `± m · 2 ^ e` exactly.
* `Binary64.below`, `Binary64.above`: the ends of the interval of reals that round to a double, in
  quarters of its last place, and `Binary64.closed` whether the ends belong to it.
-/

namespace EmulatorHost

/-- A double, taken apart. A finite one is `mantissa · 2 ^ exponent`, with its sign apart so that both
zeros are kept; `narrow` marks a power of two, whose lower neighbour is half as far as its upper one. -/
inductive Binary64 where
  | nan
  | infinite (negative : Bool)
  | finite (negative : Bool) (mantissa : Nat) (exponent : Int) (narrow : Bool)
  deriving DecidableEq, Repr

namespace Binary64

/-- The parts of a bit pattern: one sign bit, eleven of exponent, fifty-two of fraction. -/
def ofBits (v : UInt64) : Binary64 :=
  let bits := v.toNat
  let negative := bits >>> 63 == 1
  let biased : Nat := (bits >>> 52) % 2048
  let fraction : Nat := bits % (1 <<< 52)
  if biased = 2047 then
    if fraction = 0 then infinite negative else nan
  else if biased = 0 then finite negative fraction (-1074) false
  else finite negative ((1 <<< 52) + fraction) ((biased : Int) - 1075) (fraction == 0 && 1 < biased)

/-- The parts of a double. -/
def ofFloat (x : Float) : Binary64 := ofBits x.toBits

/-- How far below `4 · mantissa` the rounding interval ends, in quarters of the last place. -/
def below (narrow : Bool) : Nat := if narrow then 1 else 2

/-- How far above `4 · mantissa` the rounding interval ends, in quarters of the last place. -/
def above : Nat := 2

/-- Ties go to the even significand, so it alone owns the ends of its interval. -/
def closed (mantissa : Nat) : Bool := mantissa % 2 == 0

end Binary64

end EmulatorHost
