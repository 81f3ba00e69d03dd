import EmulatorHost.Json.Error

/-!
# Reading JSON from the front of a text

* `JsonReader`: reads something and leaves the characters after it.
* `Json.peek`: the next character that is no white space; `Json.word`, `Json.colon`.
* `Json.nextKey`, `Json.nextItem`, `Json.endList`: the punctuation of objects and lists.
-/

namespace EmulatorHost

/-- Reads something from the front of a text and leaves the rest. -/
abbrev JsonReader := StateT (List Char) (Except JsonError)

namespace Json

@[simp] theorem ok_bind {α β : Type} (a : α) (f : α → Except JsonError β) : (.ok a >>= f) = f a := rfl

@[simp] theorem map_ok {α β : Type} (f : α → β) (a : α) :
    (f <$> (.ok a : Except JsonError α)) = .ok (f a) := rfl

@[simp] theorem pure_eq_ok {α : Type} (a : α) : (pure a : Except JsonError α) = .ok a := rfl

/-- White space between the parts of a text. -/
def isBlank (c : Char) : Bool := c == ' ' || c == '\n' || c == '\t' || c == '\r'

/-- Drops the next character. -/
def advance : JsonReader Unit := modify List.tail

/-- The next character that is no white space, left in place; none at the end of the text. -/
def peek : JsonReader (Option Char) := do
  modify fun s => s.dropWhile isBlank
  return (← get).head?

/-- The next character that is no white space, where a value has to follow. -/
def peekValue : JsonReader Char := do
  match ← peek with
  | some c => return c
  | none => throw (.ends .value)

/-- The rest of a literal word. -/
def word : List Char → JsonReader Unit
  | [] => return
  | w :: ws => do
    match ← get with
    | [] => throw (.ends .value)
    | c :: rest =>
      set rest
      if c = w then word ws else throw .expectedIdent

/-- The colon after a key. -/
def colon : JsonReader Unit := do
  match ← peek with
  | some ':' => advance
  | some _ => throw .expectedColon
  | none => throw (.ends .object)

/-- Goes to the quote before the next key of an object, if there is one. -/
def nextKey (first : Bool) : JsonReader Bool := do
  match ← peek with
  | some '}' => return false
  | some c =>
    if first then
      if c = '"' then return true else throw .keyNotString
    else if c = ',' then
      advance
      match ← peek with
      | some '"' => return true
      | some '}' => throw .trailingComma
      | some _ => throw .keyNotString
      | none => throw (.ends .value)
    else throw .expectedObjectEnd
  | none => throw (.ends .object)

/-- Goes to the next item of a list, if there is one. -/
def nextItem (first : Bool) : JsonReader Bool := do
  match ← peek with
  | some ']' => return false
  | some c =>
    if first then return true
    else if c = ',' then
      advance
      match ← peek with
      | some ']' => throw .trailingComma
      | some _ => return true
      | none => throw (.ends .value)
    else throw .expectedListEnd
  | none => throw (.ends .list)

/-- The bracket after the last item that is wanted. -/
def endList : JsonReader Unit := do
  match ← peek with
  | some ']' => advance
  | some ',' =>
    advance
    match ← peek with
    | some ']' => throw .trailingComma
    | _ => throw .trailingCharacters
  | some _ => throw .trailingCharacters
  | none => throw (.ends .list)

end Json

end EmulatorHost
