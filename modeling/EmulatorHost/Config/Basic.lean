import EmulatorHost.Json.Error
import EmulatorHost.Keys.KeyMap
import EmulatorHost.Time.Cadence

/-!
# Configurations

* `Delivery`: how input reaches the core.
* `Config`: what a host can set; `Config.standard` where it sets nothing.
* `ConfigError`: the text does not read, or an interval is not usable.
* `Config.validate`: both intervals are finite and at least a microsecond, the emulation interval
  first; **`Config.validate_ok_iff`**.
* `Config.cadence`, `Config.refreshInterval`, `Config.keyMap`: what the settings come to.
-/

namespace EmulatorHost

/-- How input reaches the core: as the whole controller byte before every step, or event by event as
it happens. -/
inductive Delivery where
  | packed | discrete
  deriving DecidableEq, Repr, Inhabited

/-- The word for a delivery in configurations. -/
def Delivery.word : Delivery → String
  | packed => "packed"
  | discrete => "discrete"

/-- What a host can set. -/
structure Config where
  /-- What one step covers; where it is not set, what the core says. -/
  stepUnit : Option StepUnit
  /-- The spacing of steps in milliseconds; where it is not set, what the unit implies. -/
  emulationMillis : Option Float
  /-- The spacing of pictures in milliseconds. -/
  refreshMillis : Float
  delivery : Delivery
  bindings : Bindings
  deriving DecidableEq

/-- Why a configuration cannot be used. -/
inductive ConfigError where
  | parse (cause : JsonError)
  | interval (millis : Float)
  | refreshInterval (millis : Float)
  deriving DecidableEq

/-- The wording of a configuration error. -/
def ConfigError.message : ConfigError → String
  | parse cause => "failed to parse config: " ++ cause.message
  | interval millis => "invalid emulation interval " ++ NumberLayout.plain.write millis ++ " ms"
  | refreshInterval millis => "invalid refresh interval " ++ NumberLayout.plain.write millis ++ " ms"

namespace Config

/-- The settings of a host that sets nothing: sixty pictures a second, packed input, the standard keys. -/
def standard : Config := ⟨none, none, 1000 / 60, .packed, .standard⟩

instance : Inhabited Config := ⟨standard⟩

/-- A usable interval is finite and at least a microsecond. -/
def usable (millis : Float) : Bool := millis.isFinite && 0.001 ≤ millis

/-- Checks the intervals, the emulation interval first. -/
def validate (c : Config) : Except ConfigError Unit :=
  match c.emulationMillis with
  | some millis =>
    if !usable millis then .error (.interval millis)
    else if !usable c.refreshMillis then .error (.refreshInterval c.refreshMillis)
    else .ok ()
  | none => if !usable c.refreshMillis then .error (.refreshInterval c.refreshMillis) else .ok ()

/-- **A configuration passes if its intervals are usable.** -/
theorem validate_ok_iff (c : Config) :
    c.validate = .ok () ↔ (∀ millis ∈ c.emulationMillis, usable millis) ∧ usable c.refreshMillis := by
  unfold validate
  cases c.emulationMillis with
  | none => simp
  | some millis => by_cases h : usable millis <;> simp [h]

/-- What one step covers, for a core that steps by `core`. -/
def stepUnitFor (c : Config) (core : StepUnit) : StepUnit := c.stepUnit.getD core

/-- The cadence for a core that steps by `core`. -/
def cadence (c : Config) (core : StepUnit) : Except ConfigError Cadence :=
  match c.emulationMillis with
  | some millis => (Cadence.ofMillis millis (c.stepUnitFor core)).mapError fun _ => .interval millis
  | none => .ok (.forUnit (c.stepUnitFor core))

/-- The spacing of pictures. -/
def refreshInterval (c : Config) : Except Duration.SecondsError Duration := Duration.ofMillis c.refreshMillis

/-- The key map of the configured bindings. -/
def keyMap (c : Config) : KeyMap := .ofBindings c.bindings

end Config

end EmulatorHost
