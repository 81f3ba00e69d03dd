import EmulatorHost.Host.Core
import EmulatorHost.Picture.FrameBuffer

/-!
# A core on a page

A page offers a core of its own kind: it steps by single scanlines, takes input as one byte, may throw
anything, and keeps its picture in a memory that the page can replace by a larger one.

* `Thrown`: what a step can throw; `Thrown.message`.
* `PageCore`: the core and the time as the page offers them, and the mirror that the host keeps of it.
* `PageCore.mirrored`: the window of the memory that holds the picture, copied over the mirror.
* `PageCore.toCore`: the same as a core of the host, which sees only the mirror, so that the picture
  begins at its start.
* `PageCore.clock`: the time of the page.
-/

namespace EmulatorHost

/-- What a page can throw. -/
inductive Thrown where
  /-- An error object with a message. -/
  | errorObject (message : String)
  | text (s : String)
  | undefined
  | null
  deriving DecidableEq, Repr

/-- The wording of what was thrown. -/
def Thrown.message : Thrown → String
  | errorObject message => message
  | text s => s
  | undefined => "JsValue(undefined)"
  | null => "JsValue(null)"

/-- The byte that stands for an input: the controller byte, or the number of the event. -/
def KeyInput.byte : KeyInput → UInt8
  | state s => s.bits
  | event e => e.code

/-- A core as a page offers it, the time in milliseconds, and where the host keeps a copy of the picture. -/
structure PageCore (σ : Type) where
  reset : Act σ Unit
  load : ByteArray → Act σ Bool
  stepLine : Act σ (Except Thrown Unit)
  updateKey : UInt8 → Act σ Unit
  memory : Act σ ByteArray
  /-- Where the picture begins in the memory. -/
  pointer : Nat
  millis : Act σ Float
  /-- What was last copied out of the memory. -/
  mirror : σ → ByteArray
  setMirror : ByteArray → σ → σ

namespace PageCore

variable {σ : Type}

/-- Where the window of the picture starts, and where it stops, as far as the memory goes. The sum stays
inside the address space. -/
def window (pointer size : Nat) : Nat × Nat :=
  let stop := min (pointer + (FrameBuffer.standard 0).sourceSize) (FrameBuffer.addressSpace - 1)
  (min pointer size, min stop size)

/-- A mirror, cut or filled up to the size of the window, after the window was copied over it. -/
def mirrored (pointer : Nat) (memory mirror : ByteArray) : ByteArray :=
  let (start, stop) := window pointer memory.size
  memory.copySlice start (FrameBuffer.resized mirror (stop - start) 0) 0 (stop - start)

/-- A core of a page as a core of the host. -/
def toCore (c : PageCore σ) : Core σ where
  reset := c.reset
  load := c.load
  step := do
    match ← c.stepLine with
    | .ok () => return .ok ()
    | .error t => return .error ⟨[t.message]⟩
  updateKey input := c.updateKey input.byte
  memory := do
    let memory ← c.memory
    let mirror := mirrored c.pointer memory (c.mirror (← get))
    modify (c.setMirror mirror)
    return mirror
  base := 0
  unit := .scanline

/-- The time of the page, which is never before its origin. Waiting is left to the page. -/
def clock (c : PageCore σ) : Clock σ where
  now := do
    let millis ← c.millis
    match Duration.ofMillis (if 0 < millis then millis else 0) with
    | .ok t => return t
    | .error e => throw (.text e.message)
  sleep _ := return

end PageCore

end EmulatorHost
