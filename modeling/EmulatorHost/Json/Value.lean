import EmulatorHost.Json.Number
import EmulatorHost.Json.Text

/-!
# Values of one type, and of any

* `Json.wrongType`: what a reader says where it finds a value of another type.
* `Json.null?`, `Json.float`, `Json.choice`: readers for a few types.
* `Json.skipValue`: passes over any value, however deeply nested.
-/

namespace EmulatorHost.Json

/-- Refuses the value at hand, which has to be read as far as the error tells. -/
def wrongType {α : Type} (expected : String) : JsonReader α := do
  match ← peekValue with
  | 'n' => advance; word "ull".toList; throw (.invalidType .null expected)
  | 't' => advance; word "rue".toList; throw (.invalidType (.boolean true) expected)
  | 'f' => advance; word "alse".toList; throw (.invalidType (.boolean false) expected)
  | '-' => advance; throw (.invalidType (← number true).found expected)
  | '"' => advance; throw (.invalidType (.text (← text)) expected)
  | '[' => throw (.invalidType .sequence expected)
  | '{' => throw (.invalidType .map expected)
  | c => if c.isDigit then throw (.invalidType (← number false).found expected) else throw .expectedValue

/-- Reads null as none and anything else with a reader. -/
def null? {α : Type} (r : JsonReader α) : JsonReader (Option α) := do
  if (← peek) == some 'n' then
    advance
    word "ull".toList
    return none
  else return some (← r)

/-- Reads a number. -/
def float : JsonReader Float := do
  let c ← peekValue
  if c = '-' then
    advance
    return (← number true).toFloat
  else if c.isDigit then return (← number false).toFloat
  else wrongType "f64"

/-- The choice a name stands for. -/
def choose {α : Type} (choices : List (String × α)) (name : String) : JsonReader α :=
  match choices.lookup name with
  | some a => return a
  | none => throw (.unknownVariant name (choices.map (·.1)))

/-- Reads one of several named choices: its name alone, or an object whose one key is the name and
whose value is null. -/
def choice {α : Type} (choices : List (String × α)) : JsonReader α := do
  let c ← peekValue
  if c = '"' then
    advance
    choose choices (← text)
  else if c = '{' then
    advance
    if !(← nextKey true) then throw .expectedValue
    advance
    let a ← choose choices (← text)
    colon
    if (← peekValue) = 'n' then
      advance
      word "ull".toList
    else wrongType "unit"
    match ← peek with
    | some '}' =>
      advance
      return a
    | some _ => throw .expectedValue
    | none => throw (.ends .object)
  else throw .expectedValue

/-! ## Passing over values -/

/-- What encloses a place in a value. -/
inductive Enclosure where
  | list | object
  deriving DecidableEq, Repr

/-- What comes next while a value is passed over. -/
inductive Expecting where
  /-- A value. -/
  | value
  /-- A comma, or the end of the enclosure. -/
  | more

/-- Where a text ends that ends inside an enclosure. -/
def Enclosure.place : Enclosure → JsonPlace
  | list => .list
  | object => .object

/-- The character that closes an enclosure. -/
def Enclosure.close : Enclosure → Char
  | list => ']'
  | object => '}'

/-- What is wrong where an enclosure neither ends nor goes on. -/
def Enclosure.unclosed : Enclosure → JsonError
  | list => .expectedListEnd
  | object => .expectedObjectEnd

/-- Passes over the key of an object and the colon after it. -/
def skipKey : JsonReader Unit := do
  match ← peek with
  | some '"' => advance
  | some _ => throw .keyNotString
  | none => throw (.ends .object)
  skipText
  colon

/-- Passes over a value that neither encloses another nor is empty. -/
def skipScalar (c : Char) : JsonReader Unit := do
  match c with
  | 'n' => advance; word "ull".toList
  | 't' => advance; word "rue".toList
  | 'f' => advance; word "alse".toList
  | '-' => advance; skipNumber
  | '"' => advance; skipText
  | c => if c.isDigit then skipNumber else throw .expectedValue

/-- Goes to the next value of an enclosure, past its key if it has one. -/
def skipToValue : Enclosure → JsonReader Unit
  | .list => return
  | .object => skipKey

/-- Closes an enclosure if it ends here, and goes to its first value if it does not. -/
def skipOpening (e : Enclosure) : JsonReader Expecting := do
  match ← peek with
  | none => throw (.ends e.place)
  | some c =>
    if c = e.close then
      advance
      return .more
    else
      skipToValue e
      return .value

/-- Closes an enclosure if it ends here, and goes to its next value if a comma follows. -/
def skipComma (e : Enclosure) : JsonReader Expecting := do
  match ← peek with
  | none => throw (.ends e.place)
  | some c =>
    if c = e.close then
      advance
      return .more
    else if c = ',' then
      advance
      skipToValue e
      return .value
    else throw e.unclosed

/-- The enclosures around a place after one of them was opened or left. -/
def around (e : Enclosure) (outer : List Enclosure) : Expecting → List Enclosure
  | .value => e :: outer
  | .more => outer

/-- Goes on inside the enclosures around a place, the innermost first, until all are closed. Every
step takes a character, so the text itself serves as fuel, and the text is at its end where the fuel
is. -/
def skipFrom : List Char → Expecting → List Enclosure → JsonReader Unit
  | _, .more, [] => return
  | [], .value, _ => throw (.ends .value)
  | [], .more, inner :: _ => throw (.ends inner.place)
  | _ :: fuel, .value, outer => do
    let c ← peekValue
    if c = '[' then
      advance
      let next ← skipOpening .list
      skipFrom fuel next (around .list outer next)
    else if c = '{' then
      advance
      let next ← skipOpening .object
      skipFrom fuel next (around .object outer next)
    else
      skipScalar c
      skipFrom fuel .more outer
  | _ :: fuel, .more, inner :: outer => do
    let next ← skipComma inner
    skipFrom fuel next (around inner outer next)

/-- Passes over any value. -/
def skipValue : JsonReader Unit := do
  skipFrom (← get) .value []

end EmulatorHost.Json
