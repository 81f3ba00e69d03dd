import EmulatorHost.Number.Binary64

/-!
# The fewest digits that read back

* `Decimal`: a whole coefficient and a power of ten.
* `Decimal.shortest`: of the decimals that round to a double, one with the fewest digits, and of
  those the nearest to it; an exact tie between two is settled by `Tie`.

The search runs in whole numbers. On each grid of one, two, … seventeen digits only the two
neighbours of the double need a look: if a point of the grid lies in the rounding interval, so does
one of them.
-/

namespace EmulatorHost

/-- The number `coefficient · 10 ^ exponent`. -/
structure Decimal where
  coefficient : Nat
  exponent : Int
  deriving DecidableEq, Repr

/-- Which of two equally near decimals is taken. -/
inductive Tie where
  | up | even
  deriving DecidableEq, Repr

namespace Decimal

/-- `b ^ e` as a fraction of whole numbers. -/
private def power (b : Nat) (e : Int) : Nat × Nat := (b.pow e.toNat, b.pow (-e).toNat)

/-- The greatest `k` with `10 ^ k ≤ num / den`, looked for among `low … low + span`. -/
def leading (num den : Nat) (low : Int) : Nat → Int
  | 0 => low
  | span + 1 =>
    let k := low + (span + 1 : Nat)
    let p := power 10 k
    if den * p.1 ≤ num * p.2 then k else leading num den low span

/-- One of the two neighbours of `m · 2 ^ e` on the grid of multiples of `10 ^ k`, if one rounds to it. -/
def onGrid? (tie : Tie) (m : Nat) (e : Int) (narrow : Bool) (k : Int) : Option Decimal :=
  let two := power 2 (e - 2)
  let ten := power 10 k
  -- quarters of the last place and steps of the grid, over one denominator
  let quarter := two.1 * ten.2
  let step := ten.1 * two.2
  let middle := 4 * m * quarter
  let low := (4 * m - Binary64.below narrow) * quarter
  let high := (4 * m + Binary64.above) * quarter
  let inside (c : Nat) : Bool :=
    let v := c * step
    if Binary64.closed m then low ≤ v && v ≤ high else low < v && v < high
  let c := middle / step
  let down := inside c
  let up := inside (c + 1)
  let below := middle - c * step
  let above := (c + 1) * step - middle
  if down && up then
    if below < above then some ⟨c, k⟩
    else if above < below then some ⟨c + 1, k⟩
    else match tie with
      | .up => some ⟨c + 1, k⟩
      | .even => some ⟨c + c % 2, k⟩
  else if down then some ⟨c, k⟩
  else if up then some ⟨c + 1, k⟩
  else none

/-- The first grid that holds a decimal, from `k` downwards. -/
def firstGrid (tie : Tie) (m : Nat) (e : Int) (narrow : Bool) (k : Int) : Nat → Decimal
  | 0 => ⟨m * (power 2 e).1 * (power 10 k).2 / (power 2 e).2, k⟩
  | grids + 1 =>
    match onGrid? tie m e narrow k with
    | some d => d
    | none => firstGrid tie m e narrow (k - 1) grids

/-- Drops the zeros at the end of the coefficient, at most `n` of them. -/
def trim : Nat → Decimal → Decimal
  | 0, d => d
  | n + 1, d =>
    if d.coefficient ≠ 0 ∧ d.coefficient % 10 = 0 then trim n ⟨d.coefficient / 10, d.exponent + 1⟩
    else d

/-- The shortest decimal that reads back as `m · 2 ^ e`, for `m` not zero; seventeen digits always do. -/
def shortest (tie : Tie) (m : Nat) (e : Int) (narrow : Bool) : Decimal :=
  let two := power 2 e
  let k := leading (m * two.1) two.2 (-324) 633
  trim 18 (firstGrid tie m e narrow k 17)

end Decimal

end EmulatorHost
