/-!
# The picture window

A core keeps its picture somewhere in its memory, a few bytes a pixel. `FrameBuffer` says where,
and expands it into four bytes a pixel, the last of them opaque.

* `FrameBuffer`: base, width, height and bytes a pixel of the window.
* `FrameBuffer.writeDisplay`: expands the window of a memory into a buffer of the right size.
* `FrameBuffer.toDisplay`: the same into a new buffer.
* `FrameBuffer.resized`: a buffer cut or filled up to a size.

The buffer is checked first, the window second, and only then is anything written. A window with
fewer than three bytes a pixel runs out while it is read; what was written until then stays.
-/

namespace EmulatorHost

/-- Where the picture lies in a core's memory. -/
structure FrameBuffer where
  base : Nat
  width : Nat
  height : Nat
  channels : Nat
  deriving DecidableEq, Repr

/-- Why a picture cannot be shown. -/
inductive FrameBufferError where
  /-- The window does not lie inside the memory. -/
  | outOfBounds (start stop length : Nat)
  /-- The buffer for the picture has the wrong size. -/
  | outputSize (expected actual : Nat)
  deriving DecidableEq, Repr

/-- A number in lower-case hexadecimal. -/
def hex (n : Nat) : String := "0x" ++ String.ofList (Nat.toDigits 16 n)

/-- The text of a picture error. -/
def FrameBufferError.message : FrameBufferError → String
  | outOfBounds start stop length =>
    "framebuffer window " ++ hex start ++ ".." ++ hex stop ++ " exceeds core memory of " ++ hex length
      ++ " bytes"
  | outputSize expected actual =>
    "display buffer is " ++ toString actual ++ " bytes, expected " ++ toString expected

namespace FrameBuffer

/-- The addresses of a core's memory. -/
def addressSpace : Nat := UInt64.size

/-- The standard picture at a given address. -/
def standard (base : Nat) : FrameBuffer := ⟨base, 256, 240, 3⟩

/-- Bytes of the window. -/
def sourceSize (fb : FrameBuffer) : Nat := fb.width * fb.height * fb.channels

/-- Bytes of the expanded picture. -/
def displaySize (fb : FrameBuffer) : Nat := fb.width * fb.height * 4

/-- The address after the window; none past the end of the address space. -/
def stop? (fb : FrameBuffer) : Option Nat :=
  if fb.base + fb.sourceSize < addressSpace then some (fb.base + fb.sourceSize) else none

/-- The window lies inside a memory of a given size. -/
def Fits (fb : FrameBuffer) (length : Nat) : Prop := ∃ stop, fb.stop? = some stop ∧ stop ≤ length

instance (fb : FrameBuffer) (length : Nat) : Decidable (fb.Fits length) :=
  match h : fb.stop? with
  | none => isFalse fun ⟨_, e, _⟩ => by simp [h] at e
  | some stop => if hs : stop ≤ length then isTrue ⟨stop, h, hs⟩
    else isFalse fun ⟨_, e, hl⟩ => hs (by rw [h, Option.some.injEq] at e; exact e ▸ hl)

/-- How the writing of a picture ended: with every pixel written, or where the window ran out. -/
inductive Written where
  | whole (out : ByteArray)
  | cut (out : ByteArray)

namespace Written

/-- What the buffer holds, however the writing ended. -/
def out : Written → ByteArray
  | whole b => b
  | cut b => b

end Written

/-- Expands `n` more pixels, from pixel `i` on. A byte the window does not have ends the writing. -/
def expand (fb : FrameBuffer) (memory : ByteArray) (i : Nat) : Nat → ByteArray → Written
  | 0, out => .whole out
  | n + 1, out =>
    let s := i * fb.channels
    let a := fb.base + s
    let d := i * 4
    if s + 2 < fb.sourceSize then
      let out := out.set! d (memory.get! a)
      let out := out.set! (d + 1) (memory.get! (a + 1))
      let out := out.set! (d + 2) (memory.get! (a + 2))
      expand fb memory (i + 1) n (out.set! (d + 3) 255)
    else if s + 1 < fb.sourceSize then
      .cut ((out.set! d (memory.get! a)).set! (d + 1) (memory.get! (a + 1)))
    else if s < fb.sourceSize then .cut (out.set! d (memory.get! a))
    else .cut out

/-- Expands the window of a memory into a buffer. -/
def writeDisplay (fb : FrameBuffer) (memory out : ByteArray) : Except FrameBufferError Written :=
  if out.size ≠ fb.displaySize then .error (.outputSize fb.displaySize out.size)
  else if fb.Fits memory.size then .ok (expand fb memory 0 (fb.width * fb.height) out)
  else .error (.outOfBounds fb.base (fb.stop?.getD (addressSpace - 1)) memory.size)

/-- A buffer of the same byte throughout. -/
def filled (n : Nat) (fill : UInt8) : ByteArray := ⟨Array.replicate n fill⟩

/-- A buffer cut or filled up to a given size. -/
def resized (b : ByteArray) (n : Nat) (fill : UInt8) : ByteArray :=
  if n ≤ b.size then b.extract 0 n else b ++ filled (n - b.size) fill

/-- Expands the window of a memory into a new buffer. -/
def toDisplay (fb : FrameBuffer) (memory : ByteArray) : Except FrameBufferError Written :=
  fb.writeDisplay memory (filled fb.displaySize 255)

end FrameBuffer

end EmulatorHost
