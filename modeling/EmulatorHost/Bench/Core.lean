import EmulatorHost.Host.Core
import EmulatorHost.Picture.FrameBuffer
import EmulatorHost.Time.ManualClock

/-!
# A scripted core

A stand-in for an emulator core, for tests and runs without one. It writes down every call, and its
script says which images it takes, how long a step lasts, and which calls fail or panic.

* `CoreScript`: what stays the same while the core is used.
* `ScriptedCore`: what changes, the calls so far among it.
* `ScriptedCore.record`: writes a call down.
-/

namespace EmulatorHost

/-- How a scripted core behaves. Calls of each kind count from zero. -/
structure CoreScript where
  unit : StepUnit
  /-- Where the picture begins. -/
  base : Nat
  /-- How long a step takes, if it moves the clock at all. -/
  cost : Option Duration
  /-- Steps that fail. -/
  failing : List Nat
  /-- Steps that panic. -/
  panicking : List Nat
  /-- Steps that panic after they were taken, with a fixed text. -/
  panickingLate : List Nat
  /-- Steps that panic after they were taken, without a text. -/
  panickingSilently : List Nat
  /-- Steps that fail after they were taken, with their accounts. -/
  failingLate : List (Nat × List String)
  resetPanics : List Nat
  loadPanics : List Nat
  keyPanics : List Nat

/-- What changes about a scripted core. -/
structure ScriptedCore where
  /-- The calls so far, the latest first. -/
  calls : List CoreCall
  resets : Nat
  loads : Nat
  /-- Steps attempted so far. -/
  steps : Nat
  keys : Nat
  acceptsRoms : Bool
  memory : ByteArray

namespace ScriptedCore

/-- A memory with one picture of a single colour, `base` bytes in. -/
def uniform (base : Nat) (pixel : List UInt8) : ByteArray :=
  let pixels := (FrameBuffer.standard base).width * (FrameBuffer.standard base).height
  pixels.fold (fun _ _ b => pixel.foldl ByteArray.push b) ⟨Array.replicate base 0⟩

/-- A core that has not been called. -/
def fresh (acceptsRoms : Bool) (memory : ByteArray) : ScriptedCore := ⟨[], 0, 0, 0, 0, acceptsRoms, memory⟩

/-- How often a call was made. -/
def count (c : ScriptedCore) (call : CoreCall) : Nat := c.calls.count call

/-- The inputs the core was given, the oldest first. -/
def keyInputs (c : ScriptedCore) : List KeyInput :=
  c.calls.reverse.filterMap fun
    | .updateKey input => some input
    | _ => none

/-- Writes a call down and counts it with its kind; how many of the kind there were before. -/
def record (call : CoreCall) : Act ScriptedCore Nat := do
  let c ← get
  let d := { c with calls := call :: c.calls }
  match call with
  | .reset =>
    set { d with resets := d.resets + 1 }
    return c.resets
  | .load _ =>
    set { d with loads := d.loads + 1 }
    return c.loads
  | .step =>
    set { d with steps := d.steps + 1 }
    return c.steps
  | .updateKey _ =>
    set { d with keys := d.keys + 1 }
    return c.keys

/-- Cuts the memory to a length. -/
def truncate (c : ScriptedCore) (length : Nat) : ScriptedCore :=
  if length < c.memory.size then { c with memory := c.memory.extract 0 length } else c

/-- Overwrites one pixel of the picture. -/
def setPixel (base row column : Nat) (rgb : List UInt8) : Act ScriptedCore Unit := do
  let c ← get
  let i := base + (row * (FrameBuffer.standard base).width + column) * (FrameBuffer.standard base).channels
  if i + rgb.length ≤ c.memory.size then
    let step (m : ByteArray × Nat) (b : UInt8) : ByteArray × Nat := (m.1.set! m.2 b, m.2 + 1)
    set { c with memory := (rgb.foldl step (c.memory, i)).1 }
  else throw (.text "the pixel lies outside the memory")

end ScriptedCore

end EmulatorHost
