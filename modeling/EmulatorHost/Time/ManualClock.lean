import EmulatorHost.Host.Core

/-!
# A clock moved by hand

* `ManualClock`: stands still until it is moved; sleeping moves it at once.
* `ManualClock.advance`, `ManualClock.moveTo`, `ManualClock.clock`.
-/

namespace EmulatorHost

/-- A clock that stands still until it is moved. -/
structure ManualClock where
  now : Duration
  deriving DecidableEq

namespace ManualClock

/-- Moves the clock on. A panic leaves it where it was. -/
def advance (span : Duration) : Act ManualClock Unit := do
  set (⟨← Act.ofExcept ((← get).now.after span)⟩ : ManualClock)

/-- Moves the clock to a time, forwards or back. -/
def moveTo (time : Duration) : Act ManualClock Unit := set (⟨time⟩ : ManualClock)

/-- The clock as the host sees it. -/
def clock : Clock ManualClock := ⟨return (← get).now, advance⟩

end ManualClock

end EmulatorHost
