import EmulatorHost.Json.Reader

/-!
# Numbers in JSON

A number is read as a significand of at most 64 bits and a power of ten. Digits that no longer fit
are left out: before the point they count as a power of ten, after it they do not count.

* `JsonNumber`: a whole number of 64 bits, or a double; `JsonNumber.toFloat`.
* `Json.number`: reads a number; `Json.skipNumber` passes over one and asks only for its form.
* `Json.scale`: a significand times a power of ten, by one multiplication or division by a power that
  is itself a double, after as many divisions by `10 ^ 308` as a smaller exponent takes.
-/

namespace EmulatorHost

/-- A number as read. -/
inductive JsonNumber where
  | whole (n : Int)
  | floating (x : Float)

namespace JsonNumber

/-- The double nearest to a number of 64 bits. -/
def ofSignificand (n : Nat) : Float := (UInt64.ofNat n).toFloat

/-- A number as a double. -/
def toFloat : JsonNumber → Float
  | whole n => if n < 0 then -ofSignificand n.natAbs else ofSignificand n.natAbs
  | floating x => x

/-- A number as an error names it. -/
def found : JsonNumber → JsonFound
  | whole n => .integer n
  | floating x => .floating x

end JsonNumber

namespace Json

/-- The value of a decimal digit. -/
def digitValue (c : Char) : Nat := c.toNat - '0'.toNat

/-- Appends digits to a significand while it stays below `2 ^ 64`, and gives the digits left out. -/
def absorb (significand : Nat) : List Char → Nat × List Char
  | [] => (significand, [])
  | d :: ds =>
    let next := significand * 10 + digitValue d
    if next < UInt64.size then absorb next ds else (significand, d :: ds)

/-- The power of ten nearest to `10 ^ n`. -/
def powerOfTen (n : Nat) : Float := Float.ofScientific 1 false n

/-- The double for `x · 10 ^ exponent`; infinity has none. -/
def scale (x : Float) (exponent : Int) : Except JsonError Float :=
  if 308 < exponent then
    if x == 0 then .ok x else .error .numberOutOfRange
  else if 0 ≤ exponent then
    let y := x * powerOfTen exponent.toNat
    if y.isInf then .error .numberOutOfRange else .ok y
  else if -308 ≤ exponent then .ok (x / powerOfTen (-exponent).toNat)
  else if x == 0 then .ok x
  else scale (x / powerOfTen 308) (exponent + 308)
termination_by (-exponent).toNat

/-- A significand and a power of ten as a double with a sign. -/
def assemble (negative : Bool) (significand : Nat) (exponent : Int) : Except JsonError Float :=
  (scale (JsonNumber.ofSignificand significand) exponent).map fun x => if negative then -x else x

/-- The digits at the front of the text. -/
def digits : JsonReader (List Char) := do
  let ds := (← get).takeWhile Char.isDigit
  modify fun s => s.dropWhile Char.isDigit
  return ds

/-- The next character, white space included. -/
def head : JsonReader (Option Char) := return (← get).head?

/-- Reads an exponent after its letter and ends the number. -/
def exponentPart (negative : Bool) (significand : Nat) (exponent : Int) : JsonReader Float := do
  let down := (← head) == some '-'
  if down || (← head) == some '+' then advance
  match ← head with
  | none => throw (.ends .value)
  | some c =>
    if c.isDigit then
      let power := (← digits).foldl (fun n d => n * 10 + digitValue d) 0
      if power < UInt32.size / 2 then
        assemble negative significand (if down then exponent - power else exponent + power)
      else if significand = 0 || down then return if negative then -0.0 else 0.0
      else throw .numberOutOfRange
    else throw .invalidNumber

/-- Whether an exponent begins here. -/
def atExponent : JsonReader Bool := do
  let c ← head
  return c == some 'e' || c == some 'E'

/-- Reads what follows the point and ends the number. -/
def fractionPart (negative : Bool) (significand : Nat) (exponent : Int) : JsonReader Float := do
  let ds ← digits
  if ds.isEmpty then
    match ← head with
    | none => throw (.ends .value)
    | some _ => throw .invalidNumber
  let (significand, left) := absorb significand ds
  let exponent := exponent - (ds.length - left.length : Nat)
  if ← atExponent then
    advance
    exponentPart negative significand exponent
  else assemble negative significand exponent

/-- Reads a number after its sign. -/
def number (negative : Bool) : JsonReader JsonNumber := do
  match ← head with
  | none => throw (.ends .value)
  | some c =>
    if !c.isDigit then throw .invalidNumber
    let ds ← digits
    if c = '0' && 1 < ds.length then throw .invalidNumber
    let (significand, left) := absorb 0 ds
    if (← head) == some '.' then
      advance
      return .floating (← fractionPart negative significand left.length)
    else if ← atExponent then
      advance
      return .floating (← exponentPart negative significand left.length)
    else if !left.isEmpty then return .floating (← assemble negative significand left.length)
    else if !negative then return .whole significand
    else if significand = 0 || UInt64.size / 2 < significand then
      return .floating (-JsonNumber.ofSignificand significand)
    else return .whole (-(significand : Int))

/-- Passes over digits, at least one. -/
def skipDigits : JsonReader Unit := do
  if (← digits).isEmpty then throw .invalidNumber

/-- Passes over an exponent after its letter. -/
def skipExponent : JsonReader Unit := do
  let c ← head
  if c == some '+' || c == some '-' then advance
  skipDigits

/-- Passes over a number after its sign. -/
def skipNumber : JsonReader Unit := do
  let ds ← digits
  if ds.isEmpty then throw .invalidNumber
  if ds.head? == some '0' && 1 < ds.length then throw .invalidNumber
  if (← head) == some '.' then
    advance
    skipDigits
    if ← atExponent then
      advance
      skipExponent
  else if ← atExponent then
    advance
    skipExponent

end Json

end EmulatorHost
