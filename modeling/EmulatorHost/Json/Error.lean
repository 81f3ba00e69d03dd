import EmulatorHost.Number.Layout
import EmulatorHost.Text.Quoted

/-!
# Why a JSON text cannot be read

* `JsonError`: the first problem of a text, read from the left.
* `JsonError.category`: the text is malformed, has the wrong contents, or ends too early.
* `JsonError.message`: its wording.
-/

namespace EmulatorHost

/-- What a text ends inside of. -/
inductive JsonPlace where
  | value | object | list | string
  deriving DecidableEq, Repr

/-- A value of the wrong type, as far as an error tells. -/
inductive JsonFound where
  | null
  | boolean (b : Bool)
  | integer (n : Int)
  | floating (x : Float)
  | text (s : String)
  | sequence
  | map
  deriving DecidableEq

/-- How an error names a value. -/
def JsonFound.describe : JsonFound → String
  | null => "null"
  | boolean b => "boolean \x60" ++ toString b ++ "\x60"
  | integer n => "integer \x60" ++ toString n ++ "\x60"
  | floating x => "floating point \x60" ++ NumberLayout.json.write x ++ "\x60"
  | text s => "string " ++ quoted s
  | sequence => "sequence"
  | map => "map"

/-- The first problem of a JSON text. -/
inductive JsonError where
  | ends (inside : JsonPlace)
  | expectedValue
  | expectedIdent
  | expectedColon
  | expectedObjectEnd
  | expectedListEnd
  | keyNotString
  | trailingComma
  | trailingCharacters
  | invalidNumber
  | numberOutOfRange
  | invalidEscape
  | unfinishedPair
  | loneSurrogate
  | controlCharacter
  | invalidType (found : JsonFound) (expected : String)
  | unknownVariant (found : String) (expected : List String)
  | duplicateField (name : String)
  deriving DecidableEq

/-- The kinds of problem. -/
inductive JsonCategory where
  | syntactic | data | eof
  deriving DecidableEq, Repr

/-- The word for a kind of problem. -/
def JsonCategory.word : JsonCategory → String
  | syntactic => "syntax"
  | data => "data"
  | eof => "eof"

namespace JsonError

/-- The kind of a problem. -/
def category : JsonError → JsonCategory
  | ends _ => .eof
  | invalidType .. | unknownVariant .. | duplicateField _ => .data
  | _ => .syntactic

/-- A word between back quotes. -/
def ticked (w : String) : String := "\x60" ++ w ++ "\x60"

/-- The choices of a type, as an error lists them. -/
def choices (ws : List String) : String :=
  match ws with
  | [v, w] => ticked v ++ " or " ++ ticked w
  | _ => "one of " ++ ", ".intercalate (ws.map ticked)

/-- The wording of a problem. -/
def message : JsonError → String
  | ends .value => "EOF while parsing a value"
  | ends .object => "EOF while parsing an object"
  | ends .list => "EOF while parsing a list"
  | ends .string => "EOF while parsing a string"
  | expectedValue => "expected value"
  | expectedIdent => "expected ident"
  | expectedColon => "expected " ++ ticked ":"
  | expectedObjectEnd => "expected " ++ ticked "," ++ " or " ++ ticked "\x7d"
  | expectedListEnd => "expected " ++ ticked "," ++ " or " ++ ticked "]"
  | keyNotString => "key must be a string"
  | trailingComma => "trailing comma"
  | trailingCharacters => "trailing characters"
  | invalidNumber => "invalid number"
  | numberOutOfRange => "number out of range"
  | invalidEscape => "invalid escape"
  | unfinishedPair => "unexpected end of hex escape"
  | loneSurrogate => "lone leading surrogate in hex escape"
  | controlCharacter => "control character (\\u0000-\\u001F) found while parsing a string"
  | invalidType found expected => "invalid type: " ++ found.describe ++ ", expected " ++ expected
  | unknownVariant found expected =>
    "unknown variant " ++ ticked found ++ ", expected " ++ choices expected
  | duplicateField name => "duplicate field " ++ ticked name

end JsonError

end EmulatorHost
