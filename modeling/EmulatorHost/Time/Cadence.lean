import EmulatorHost.Time.Duration

/-!
# How often a core is stepped

* `StepUnit`: how much emulated time one step of a core covers.
* `Cadence`: the wanted spacing of steps; `Cadence.forUnit`, `Cadence.ofMillis`.
-/

namespace EmulatorHost

/-- How much emulated time one step covers: a whole picture or one line of it. -/
inductive StepUnit where
  | frame | scanline
  deriving DecidableEq, Repr, Inhabited

namespace StepUnit

/-- The word for a unit in configurations. -/
def word : StepUnit → String
  | frame => "frame"
  | scanline => "scanline"

/-- The unit a configuration word names. -/
def ofWord? (w : String) : Option StepUnit :=
  if w == "frame" then some frame else if w == "scanline" then some scanline else none

/-- The name of a unit as shown to people. -/
def label : StepUnit → String
  | frame => "Frame"
  | scanline => "Scanline"

/-- Pictures shown in a second. -/
def framesPerSecond : Nat := 60

/-- Lines of one picture, those in the blanking period included. -/
def scanlinesPerFrame : Nat := 262

/-- Steps that fill one second. -/
def stepsPerSecond : StepUnit → Nat
  | frame => framesPerSecond
  | scanline => framesPerSecond * scanlinesPerFrame

/-- The spacing at which a core of this unit runs at its own speed. -/
def interval (u : StepUnit) : Duration := Duration.perSecond u.stepsPerSecond

end StepUnit

/-- The wanted time between two steps of a core, and what one step covers. -/
structure Cadence where
  interval : Duration
  unit : StepUnit
  deriving DecidableEq

namespace Cadence

/-- The cadence at which a core of a given unit runs at its own speed. -/
def forUnit (u : StepUnit) : Cadence := ⟨u.interval, u⟩

/-- A cadence from a double of milliseconds. -/
def ofMillis (ms : Float) (u : StepUnit) : Except Duration.SecondsError Cadence :=
  (Duration.ofMillis ms).map (⟨·, u⟩)

/-- The interval in milliseconds. -/
def millis (c : Cadence) : Float := c.interval.toMillis

instance : Inhabited Cadence := ⟨forUnit .frame⟩

end Cadence

end EmulatorHost
