import EmulatorHost.Act
import EmulatorHost.Controller.State
import EmulatorHost.Time.Cadence

/-!
# The parties a host works with

* `Core`: an emulator core. The host resets it, loads it, steps it, gives it input and looks at its memory.
* `Clock`: tells the time and waits.
* `Renderer`: shows a finished picture.
* `InputSource`: yields button events, one at a time, until it has none for now.
-/

namespace EmulatorHost

/-- What a core is told about the controller. -/
inductive KeyInput where
  /-- The whole controller byte. -/
  | state (s : ControllerState)
  /-- One press or release. -/
  | event (e : ButtonEvent)
  deriving DecidableEq, Repr

/-- A call that changes a core. -/
inductive CoreCall where
  | reset
  /-- A load of an image of so many bytes. -/
  | load (size : Nat)
  | step
  | updateKey (input : KeyInput)
  deriving DecidableEq, Repr

/-- An emulator core in a world `σ`. -/
structure Core (σ : Type) where
  reset : Act σ Unit
  /-- Whether the core accepts the image. -/
  load : ByteArray → Act σ Bool
  /-- Advances the core by one step of its unit. -/
  step : Act σ (Except Failure Unit)
  updateKey : KeyInput → Act σ Unit
  /-- The memory that holds the picture. -/
  memory : Act σ ByteArray
  /-- Where the picture begins in the memory. -/
  base : Nat
  unit : StepUnit

/-- A clock in a world `σ`. -/
structure Clock (σ : Type) where
  now : Act σ Duration
  sleep : Duration → Act σ Unit

/-- What shows pictures, of four bytes a pixel and a given width and height. -/
structure Renderer (σ : Type) where
  paint : ByteArray → Nat → Nat → Act σ (Except Failure Unit)

/-- Where button events come from. -/
structure InputSource (σ : Type) where
  poll : Act σ (Option ButtonEvent)

namespace InputSource

variable {σ : Type}

/-- A source that never has an event. -/
def silent : InputSource σ := ⟨return none⟩

end InputSource

/-- The panic of a sum of spans of time that is too long. -/
def Duration.overflow : Panic := .text "overflow when adding durations"

/-- The time a span after another, which may be too late for any clock. -/
def Duration.after (start span : Duration) : Except Panic Duration :=
  match start.add? span with
  | some t => .ok t
  | none => .error Duration.overflow

end EmulatorHost
