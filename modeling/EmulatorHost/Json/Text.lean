import EmulatorHost.Json.Reader

/-!
# Strings in JSON

* `Json.escapeChar`, `Json.writeText`: how a string is written.
* `Json.text`: reads a string after its opening quote; every escape has to name a character.
* `Json.skipText`: passes over a string and asks less of its escapes.
* **`Json.text_writeText`**: what was written reads back.
-/

namespace EmulatorHost.Json

/-! ## Writing -/

/-- A digit in lower-case hexadecimal. -/
def hexDigit (n : Nat) : Char := Nat.digitChar n

/-- One character of a written string. -/
def escapeChar (c : Char) : List Char :=
  match c with
  | '"' => ['\\', '"']
  | '\\' => ['\\', '\\']
  | '\x08' => ['\\', 'b']
  | '\x0c' => ['\\', 'f']
  | '\n' => ['\\', 'n']
  | '\r' => ['\\', 'r']
  | '\t' => ['\\', 't']
  | c =>
    if c.toNat < 32 then ['\\', 'u', '0', '0', hexDigit (c.toNat / 16), hexDigit (c.toNat % 16)]
    else [c]

/-- A string in its quotes. -/
def writeText (s : List Char) : List Char := '"' :: s.flatMap escapeChar ++ ['"']

/-! ## Reading -/

/-- The value of a hexadecimal digit. -/
def hexValue? (c : Char) : Option Nat :=
  if '0' ≤ c && c ≤ '9' then some (c.toNat - '0'.toNat)
  else if 'a' ≤ c && c ≤ 'f' then some (c.toNat - 'a'.toNat + 10)
  else if 'A' ≤ c && c ≤ 'F' then some (c.toNat - 'A'.toNat + 10)
  else none

/-- The bytes a text takes, counted no further than `n`. -/
def hasBytes : Nat → List Char → Bool
  | 0, _ => true
  | _ + 1, [] => false
  | n + 1, c :: rest => hasBytes (n + 1 - c.utf8Size) rest
termination_by n s => (s, n)

/-- Four hexadecimal digits. A text with fewer than four bytes left has ended. -/
def hexFour (s : List Char) : Except JsonError (Nat × List Char) :=
  match s with
  | a :: b :: c :: d :: rest =>
    match hexValue? a, hexValue? b, hexValue? c, hexValue? d with
    | some a, some b, some c, some d => .ok (((a * 16 + b) * 16 + c) * 16 + d, rest)
    | _, _, _, _ => .error .invalidEscape
  | s => if hasBytes 4 s then .error .invalidEscape else .error (.ends .string)

/-- The character of one escaped letter. -/
def shortEscape? : Char → Option Char
  | '"' => some '"'
  | '\\' => some '\\'
  | '/' => some '/'
  | 'b' => some '\x08'
  | 'f' => some '\x0c'
  | 'n' => some '\n'
  | 'r' => some '\r'
  | 't' => some '\t'
  | _ => none

/-- The second half of a character outside the basic plane, whose first half was `high`. -/
def lowHalf (high : Nat) (s : List Char) : Except JsonError (Char × List Char) :=
  match s with
  | [] => .error (.ends .string)
  | '\\' :: [] => .error (.ends .string)
  | '\\' :: 'u' :: rest =>
    match hexFour rest with
    | .error e => .error e
    | .ok (low, rest) =>
      if 0xDC00 ≤ low && low ≤ 0xDFFF then
        .ok (Char.ofNat (0x10000 + (high - 0xD800) * 0x400 + (low - 0xDC00)), rest)
      else .error .loneSurrogate
  | _ => .error .unfinishedPair

/-- The character that an escape names, after its backslash. -/
def escape (s : List Char) : Except JsonError (Char × List Char) :=
  match s with
  | [] => .error (.ends .string)
  | 'u' :: rest =>
    match hexFour rest with
    | .error e => .error e
    | .ok (n, rest) =>
      if 0xDC00 ≤ n && n ≤ 0xDFFF then .error .loneSurrogate
      else if 0xD800 ≤ n && n ≤ 0xDBFF then lowHalf n rest
      else .ok (Char.ofNat n, rest)
  | c :: rest =>
    match shortEscape? c with
    | some c => .ok (c, rest)
    | none => .error .invalidEscape

/-- An escape that is only passed over. -/
def skipEscape (s : List Char) : Except JsonError (List Char) :=
  match s with
  | [] => .error (.ends .string)
  | 'u' :: rest => (hexFour rest).map (·.2)
  | c :: rest => if (shortEscape? c).isSome then .ok rest else .error .invalidEscape

/-- The characters up to the closing quote. Every step takes a character, so the text itself serves as
fuel. -/
def textFrom : List Char → List Char → Except JsonError (List Char × List Char)
  | [], _ | _, [] => .error (.ends .string)
  | _ :: fuel, c :: rest =>
    if c = '"' then .ok ([], rest)
    else if c = '\\' then
      match escape rest with
      | .error e => .error e
      | .ok (c, rest) =>
        match textFrom fuel rest with
        | .error e => .error e
        | .ok (cs, rest) => .ok (c :: cs, rest)
    else if c.toNat < 32 then .error .controlCharacter
    else
      match textFrom fuel rest with
      | .error e => .error e
      | .ok (cs, rest) => .ok (c :: cs, rest)

/-- A string after its opening quote. -/
def text : JsonReader String := fun s =>
  match textFrom s s with
  | .error e => .error e
  | .ok (cs, rest) => .ok (String.ofList cs, rest)

/-- Passes over the characters up to the closing quote, with the text itself as fuel. -/
def skipTextFrom : List Char → List Char → Except JsonError (List Char)
  | [], _ | _, [] => .error (.ends .string)
  | _ :: fuel, c :: rest =>
    if c = '"' then .ok rest
    else if c = '\\' then
      match skipEscape rest with
      | .error e => .error e
      | .ok rest => skipTextFrom fuel rest
    else if c.toNat < 32 then .error .controlCharacter
    else skipTextFrom fuel rest

/-- Passes over a string after its opening quote. -/
def skipText : JsonReader Unit := fun s =>
  match skipTextFrom s s with
  | .error e => .error e
  | .ok rest => .ok ((), rest)

/-! ## Reading what was written -/

theorem escape_control {n : Nat} (h : n < 32) (rest : List Char) :
    escape ('u' :: '0' :: '0' :: hexDigit (n / 16) :: hexDigit (n % 16) :: rest) =
      .ok (Char.ofNat n, rest) := by
  match n, h with
  | 0, _ | 1, _ | 2, _ | 3, _ | 4, _ | 5, _ | 6, _ | 7, _ | 8, _ | 9, _ | 10, _ | 11, _ | 12, _
  | 13, _ | 14, _ | 15, _ | 16, _ | 17, _ | 18, _ | 19, _ | 20, _ | 21, _ | 22, _ | 23, _ | 24, _
  | 25, _ | 26, _ | 27, _ | 28, _ | 29, _ | 30, _ | 31, _ => rfl
  | n + 32, h => omega

theorem textFrom_escapeChar (c f : Char) (fuel rest : List Char) :
    textFrom (f :: fuel) (escapeChar c ++ rest) =
      match textFrom fuel rest with
      | .error e => .error e
      | .ok (cs, rest) => .ok (c :: cs, rest) := by
  unfold escapeChar
  split
  case h_8 h1 h2 _ _ _ _ _ =>
    split
    · next small => simp [textFrom, escape_control small rest]
    · next large =>
      have n1 : c ≠ '"' := h1
      have n2 : c ≠ '\\' := h2
      simp [textFrom, n1, n2, large]
  all_goals simp [textFrom, escape, shortEscape?]

theorem textFrom_writeText (cs : List Char) {fuel : List Char} (h : cs.length < fuel.length)
    (rest : List Char) : textFrom fuel (cs.flatMap escapeChar ++ '"' :: rest) = .ok (cs, rest) := by
  induction cs generalizing fuel with
  | nil =>
    obtain ⟨f, fuel, rfl⟩ := List.exists_cons_of_length_pos h
    simp [textFrom]
  | cons c cs ih =>
    obtain ⟨f, fuel, rfl⟩ := List.exists_cons_of_length_pos (Nat.lt_of_le_of_lt (Nat.zero_le _) h)
    rw [List.flatMap_cons, List.append_assoc, textFrom_escapeChar, ih (by simpa using h)]

theorem length_le_escaped (cs : List Char) : cs.length ≤ (cs.flatMap escapeChar).length := by
  induction cs with
  | nil => simp
  | cons c cs ih =>
    have : 1 ≤ (escapeChar c).length := by
      unfold escapeChar
      split
      case h_8 => split <;> simp
      all_goals simp
    simp only [List.flatMap_cons, List.length_append, List.length_cons]
    omega

/-- **A written string reads back, with the text after it.** -/
theorem text_writeText (s : String) (rest : List Char) :
    text.run ((writeText s.toList).tail ++ rest) = .ok (s, rest) := by
  have e : (writeText s.toList).tail ++ rest = s.toList.flatMap escapeChar ++ '"' :: rest := by
    simp [writeText]
  have l := length_le_escaped s.toList
  rw [e]
  unfold text StateT.run
  dsimp only
  rw [textFrom_writeText _ (by simp only [List.length_append, List.length_cons]; omega)]
  simp

end EmulatorHost.Json
