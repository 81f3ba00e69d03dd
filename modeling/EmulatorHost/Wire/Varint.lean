/-!
# Numbers in stored bytes

A number below 251 is one byte. A larger one is a tag (251, 252, 253) and two, four or eight bytes,
lowest first. Writing takes the shortest form; reading takes any form that fits the type.

* `WireError`: why bytes cannot be read.
* `take`: the next bytes, or how many are missing.
* `Varint.encode`, `Varint.decode`; **`Varint.decode_encode`**: what was written reads back and leaves
  the bytes after it.
-/

namespace EmulatorHost

/-- The kinds of whole number a tag can announce. -/
inductive IntegerKind where
  | u32 | u64 | u128 | reserved
  deriving DecidableEq, Repr

/-- The name of a kind in error texts. -/
def IntegerKind.name : IntegerKind → String
  | u32 => "U32"
  | u64 => "U64"
  | u128 => "U128"
  | reserved => "Reserved"

/-- Why stored bytes cannot be read. -/
inductive WireError where
  /-- The bytes end inside a value; so many more are needed. -/
  | unexpectedEnd (missing : Nat)
  /-- A tag announces a number that does not fit. -/
  | invalidInteger (expected found : IntegerKind)
  /-- A number is none of the choices of a type, which are numbered from 0 to `last`. -/
  | unexpectedVariant (type : String) (last found : Nat)
  deriving DecidableEq, Repr

/-- The text of an error in stored bytes. -/
def WireError.message : WireError → String
  | unexpectedEnd missing => "UnexpectedEnd \x7b additional: " ++ toString missing ++ " \x7d"
  | invalidInteger expected found =>
    "InvalidIntegerType \x7b expected: " ++ expected.name ++ ", found: " ++ found.name ++ " \x7d"
  | unexpectedVariant type last found =>
    "UnexpectedVariant \x7b type_name: \"" ++ type ++ "\", allowed: Range \x7b min: 0, max: "
      ++ toString last ++ " \x7d, found: " ++ toString found ++ " \x7d"

/-- Reads a value from the front of some bytes and leaves the bytes after it. -/
abbrev Reader := StateT (List UInt8) (Except WireError)

namespace Wire

@[simp] theorem ok_bind {α β : Type} (a : α) (f : α → Except WireError β) : (.ok a >>= f) = f a := rfl

@[simp] theorem map_ok {α β : Type} (f : α → β) (a : α) :
    (f <$> (.ok a : Except WireError α)) = .ok (f a) := rfl

@[simp] theorem pure_eq_ok {α : Type} (a : α) : (pure a : Except WireError α) = .ok a := rfl

/-- The next `n` bytes. -/
def take (n : Nat) : Reader (List UInt8) := fun bytes =>
  if n ≤ bytes.length then .ok (bytes.take n, bytes.drop n)
  else .error (.unexpectedEnd (n - bytes.length))

theorem take_append {front : List UInt8} {n : Nat} (h : front.length = n) (rest : List UInt8) :
    (take n).run (front ++ rest) = .ok (front, rest) := by
  subst h
  simp [take, StateT.run]

/-- The next byte. -/
def byte : Reader UInt8
  | [] => .error (.unexpectedEnd 1)
  | b :: rest => .ok (b, rest)

/-- A number as `n` bytes, lowest first. -/
def littleEndian : Nat → Nat → List UInt8
  | 0, _ => []
  | n + 1, v => UInt8.ofNat (v % 256) :: littleEndian n (v / 256)

/-- The number that bytes spell, lowest first. -/
def value : List UInt8 → Nat
  | [] => 0
  | b :: bs => b.toNat + 256 * value bs

@[simp] theorem littleEndian_length (n v : Nat) : (littleEndian n v).length = n := by
  induction n generalizing v with
  | zero => rfl
  | succ n ih => simp [littleEndian, ih]

theorem value_littleEndian {n v : Nat} (h : v < Nat.pow 256 n) : value (littleEndian n v) = v := by
  rw [Nat.pow_eq] at h
  induction n generalizing v with
  | zero =>
    simp only [Nat.pow_zero, Nat.lt_one_iff] at h
    simp [littleEndian, value, h]
  | succ n ih =>
    have low : (UInt8.ofNat (v % 256)).toNat = v % 256 := by simp
    rw [littleEndian, value, low, ih (by rw [Nat.pow_succ] at h; omega)]
    omega

end Wire

namespace Varint

open Wire

/-- How wide the numbers of a type are. -/
inductive Width where
  | w32 | w64
  deriving DecidableEq, Repr

/-- The kind that an error says was expected, where `left` bytes are left from the tag on. Of a wide
number with nine bytes or more left it names the narrow kind. -/
def Width.kind (left : Nat) : Width → IntegerKind
  | w32 => .u32
  | w64 => if 9 ≤ left then .u32 else .u64

/-- The first number too large for a width. -/
def Width.bound : Width → Nat
  | w32 => UInt32.size
  | w64 => UInt64.size

/-- The shortest form of a number below `2 ^ 64`. -/
def encode (n : Nat) : List UInt8 :=
  if n < 251 then [UInt8.ofNat n]
  else if n < UInt16.size then 251 :: littleEndian 2 n
  else if n < UInt32.size then 252 :: littleEndian 4 n
  else 253 :: littleEndian 8 n

/-- The number that follows a tag, in `k` bytes. -/
def payload (k : Nat) : Reader Nat := do
  return value (← take k)

/-- Reads a number of a given width in any form that fits it. -/
def decode (w : Width) : Reader Nat := do
  let tag ← byte
  if tag < 251 then return tag.toNat
  else if tag = 251 then payload 2
  else if tag = 252 then payload 4
  else if tag = 253 then
    match w with
    | .w32 => throw (.invalidInteger .u32 .u64)
    | .w64 => payload 8
  else
    let kind := w.kind ((← get).length + 1)
    throw (.invalidInteger kind (if tag = 254 then .u128 else .reserved))

@[simp] theorem run_byte_cons (b : UInt8) (rest : List UInt8) : byte.run (b :: rest) = .ok (b, rest) := rfl

theorem payload_append {k v : Nat} (h : v < Nat.pow 256 k) (rest : List UInt8) :
    (payload k).run (littleEndian k v ++ rest) = .ok (v, rest) := by
  simp [payload, take_append (littleEndian_length k v), value_littleEndian h]

/-- **What was written reads back, with the bytes after it.** -/
theorem decode_encode {w : Width} {n : Nat} (h : n < w.bound) (rest : List UInt8) :
    (decode w).run (encode n ++ rest) = .ok (n, rest) := by
  unfold encode
  split
  · next small =>
    have e : (UInt8.ofNat n).toNat = n := by simp; omega
    have l : UInt8.ofNat n < 251 := by rw [UInt8.lt_iff_toNat_lt, e]; exact small
    simp [decode, l, e]
  · split
    · next fits => simpa [decode] using payload_append (k := 2) fits rest
    · split
      · next fits => simpa [decode] using payload_append (k := 4) fits rest
      · next wide =>
        cases w with
        | w32 => exact absurd h wide
        | w64 => simpa [decode] using payload_append (k := 8) h rest

end Varint

end EmulatorHost
