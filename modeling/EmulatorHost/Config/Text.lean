import EmulatorHost.Config.Basic
import EmulatorHost.Json.Value

/-!
# Configurations as JSON text

A configuration is an object of five fields, or a list of their values in order. What is missing takes
the standard setting; fields with other names are passed over.

* `Config.toJson` writes all five fields.
* `Config.parse` reads a whole text, and `Config.ofJson` checks the intervals as well.
-/

namespace EmulatorHost

namespace Config

/-! ## Writing -/

/-- The key and value of a field. -/
def writeField (name : String) (value : List Char) : List Char :=
  Json.writeText name.toList ++ ':' :: value

/-- Bindings as an object. -/
def writeBindings (b : Bindings) : List Char :=
  let fields := b.entries.map fun e => writeField e.1 (Json.writeText e.2.word.toList)
  '{' :: [','].intercalate fields ++ ['}']

/-- A double as JSON. -/
def writeFloat (x : Float) : List Char := (NumberLayout.json.write x).toList

/-- A setting as JSON, null where it is not set. -/
def writeOption {α : Type} (w : α → List Char) : Option α → List Char
  | some a => w a
  | none => "null".toList

/-- A configuration as JSON text. -/
def write (c : Config) : List Char :=
  '{' :: [','].intercalate
    [writeField "step_unit" (writeOption (fun u => Json.writeText u.word.toList) c.stepUnit),
      writeField "emulation_interval_ms" (writeOption writeFloat c.emulationMillis),
      writeField "refresh_interval_ms" (writeFloat c.refreshMillis),
      writeField "input_delivery" (Json.writeText c.delivery.word.toList),
      writeField "key_bindings" (writeBindings c.bindings)] ++ ['}']

/-- A configuration as JSON text. -/
def toJson (c : Config) : String := String.ofList c.write

/-! ## Reading -/

/-- The fields of a configuration, in order. -/
inductive Field where
  | stepUnit | emulation | refresh | delivery | bindings
  deriving DecidableEq, Repr

/-- The name of a field. -/
def Field.name : Field → String
  | stepUnit => "step_unit"
  | emulation => "emulation_interval_ms"
  | refresh => "refresh_interval_ms"
  | delivery => "input_delivery"
  | bindings => "key_bindings"

/-- All fields, in order. -/
def Field.all : List Field := [stepUnit, emulation, refresh, delivery, bindings]

/-- The field with a name. -/
def Field.ofName? (w : String) : Option Field := all.find? fun f => f.name == w

/-- The fields read so far, each with its setting. -/
structure Draft where
  stepUnit : Option (Option StepUnit) := none
  emulation : Option (Option Float) := none
  refresh : Option Float := none
  delivery : Option Delivery := none
  bindings : Option Bindings := none

/-- Whether a field has been read. -/
def Draft.has (d : Draft) : Field → Bool
  | .stepUnit => d.stepUnit.isSome
  | .emulation => d.emulation.isSome
  | .refresh => d.refresh.isSome
  | .delivery => d.delivery.isSome
  | .bindings => d.bindings.isSome

/-- The configuration of the fields read; what is missing takes the standard setting. -/
def Draft.finish (d : Draft) : Config where
  stepUnit := d.stepUnit.getD standard.stepUnit
  emulationMillis := d.emulation.getD standard.emulationMillis
  refreshMillis := d.refresh.getD standard.refreshMillis
  delivery := d.delivery.getD standard.delivery
  bindings := d.bindings.getD standard.bindings

/-- The names of the step units. -/
def unitChoices : List (String × StepUnit) := [StepUnit.frame, .scanline].map fun u => (u.word, u)

/-- The names of the deliveries. -/
def deliveryChoices : List (String × Delivery) :=
  [Delivery.packed, .discrete].map fun d => (d.word, d)

/-- The names of the buttons. -/
def buttonChoices : List (String × Button) := Button.all.map fun x => (x.word, x)

/-- Reads the rest of an object of bindings. Every key takes characters, so the text itself serves as
fuel. -/
def readEntries : List Char → Bool → Bindings → JsonReader Bindings
  | [], _, _ => throw (.ends .object)
  | _ :: fuel, first, b => do
    if ← Json.nextKey first then
      Json.advance
      let key ← Json.text
      Json.colon
      let x ← Json.choice buttonChoices
      readEntries fuel false (b.insert key x)
    else
      Json.advance
      return b

/-- Reads an object of bindings. Of several for a key the last one stays. -/
def readBindings : JsonReader Bindings := do
  if (← Json.peekValue) = '{' then
    Json.advance
    readEntries (← get) true .empty
  else Json.wrongType "a map"

/-- Reads the value of a field. -/
def readField (d : Draft) : Field → JsonReader Draft
  | .stepUnit => return { d with stepUnit := some (← Json.null? (Json.choice unitChoices)) }
  | .emulation => return { d with emulation := some (← Json.null? Json.float) }
  | .refresh => return { d with refresh := some (← Json.float) }
  | .delivery => return { d with delivery := some (← Json.choice deliveryChoices) }
  | .bindings => return { d with bindings := some (← readBindings) }

/-- Reads the rest of an object of fields. Every field takes characters, so the text itself serves as
fuel. -/
def readFields : List Char → Bool → Draft → JsonReader Draft
  | [], _, _ => throw (.ends .object)
  | _ :: fuel, first, d => do
    if ← Json.nextKey first then
      Json.advance
      let key ← Json.text
      match Field.ofName? key with
      | some f =>
        if d.has f then throw (.duplicateField f.name)
        Json.colon
        readFields fuel false (← readField d f)
      | none =>
        Json.colon
        Json.skipValue
        readFields fuel false d
    else
      Json.advance
      return d

/-- Reads the values of fields in order, as far as a list goes. -/
def readItems : Bool → List Field → Draft → JsonReader Draft
  | _, [], d => do
    Json.endList
    return d
  | first, f :: fs, d => do
    if ← Json.nextItem first then readItems false fs (← readField d f)
    else
      Json.advance
      return d

/-- Reads a configuration. -/
def read : JsonReader Config := do
  let c ← Json.peekValue
  if c = '{' then
    Json.advance
    return (← readFields (← get) true {}).finish
  else if c = '[' then
    Json.advance
    return (← readItems true Field.all {}).finish
  else Json.wrongType "struct DriverConfig"

/-- Reads a text that holds a configuration and nothing else. -/
def parse (text : String) : Except JsonError Config := do
  let (c, rest) ← read.run text.toList
  if rest.all Json.isBlank then .ok c else .error .trailingCharacters

/-- The configuration of a text, with usable intervals. -/
def ofJson (text : String) : Except ConfigError Config := do
  let c ← (parse text).mapError .parse
  c.validate
  return c

end Config

end EmulatorHost
