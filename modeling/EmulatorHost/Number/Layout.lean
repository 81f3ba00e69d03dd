import EmulatorHost.Number.Shortest

/-!
# The text of a double

* `NumberLayout`: the decisions a format takes about numbers, as one value.
* `NumberLayout.write`: the text of a double in a format.
* `NumberLayout.plain`: as in messages, never with an exponent.
* `NumberLayout.json`: as in JSON text, where a whole number keeps a point.

`Decimal.digits` and `Decimal.point` give the digits and where the point stands among them.
-/

namespace EmulatorHost

namespace Decimal

/-- The digits of the coefficient. -/
def digits (d : Decimal) : List Char := Nat.toDigits 10 d.coefficient

/-- How many digits stand before the point; negative if zeros follow the point. -/
def point (d : Decimal) : Int := d.digits.length + d.exponent

end Decimal

/-- What a format decides about numbers. -/
structure NumberLayout where
  /-- How a tie between two shortest decimals is settled. -/
  tie : Tie
  /-- For which positions of the point no exponent is written. -/
  positional : Int → Bool
  /-- What follows a whole number. -/
  whole : String
  /-- The text of what is not a number. -/
  nan : String
  /-- The text of an infinity, after its sign if `signedInfinity`. -/
  infinity : String
  signedInfinity : Bool

namespace NumberLayout

/-- Digits with the point after the first `p` of them. -/
def placed (l : NumberLayout) (ds : List Char) (p : Int) : String :=
  if p ≤ 0 then "0." ++ String.ofList (List.replicate (-p).toNat '0' ++ ds)
  else if (ds.length : Int) ≤ p then
    String.ofList (ds ++ List.replicate (p.toNat - ds.length) '0') ++ l.whole
  else String.ofList (ds.take p.toNat ++ '.' :: ds.drop p.toNat)

/-- Digits with a point after the first and a signed exponent. -/
def scientific (ds : List Char) (p : Int) : String :=
  let e := p - 1
  String.ofList (ds.take 1 ++ (if ds.length ≤ 1 then [] else '.' :: ds.drop 1))
    ++ (if e < 0 then "e-" else "e+") ++ toString e.natAbs

/-- The text of a double. -/
def write (l : NumberLayout) (x : Float) : String :=
  match Binary64.ofFloat x with
  | .nan => l.nan
  | .infinite negative => (if negative && l.signedInfinity then "-" else "") ++ l.infinity
  | .finite negative m e narrow =>
    (if negative then "-" else "") ++
      if m = 0 then "0" ++ l.whole
      else
        let d := Decimal.shortest l.tie m e narrow
        if l.positional d.point then l.placed d.digits d.point else scientific d.digits d.point

/-- Numbers in messages: every digit is written out, and a whole number has no point. -/
def plain : NumberLayout where
  tie := .up
  positional _ := true
  whole := ""
  nan := "NaN"
  infinity := "inf"
  signedInfinity := true

/-- Numbers in JSON text: an exponent below `0.00001` and from `10 ^ 16` on, a point in every whole
number before that, and `null` for what JSON cannot write. -/
def json : NumberLayout where
  tie := .even
  positional p := -5 < p && p ≤ 16
  whole := ".0"
  nan := "null"
  infinity := "null"
  signedInfinity := false

end NumberLayout

end EmulatorHost
