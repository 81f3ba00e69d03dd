import EmulatorHost.Config.Text
import EmulatorHost.Host.Scheduler
import EmulatorHost.Page.Core
import EmulatorHost.Page.Notices

/-!
# Driving a core on a page

The page owns the timers: it ticks again after the delay it is given, refreshes on every animation
frame, and collects notices when it likes.

* `Page`: a rig with its key map, its notices and what was written to the console.
* `Page.create`: a page driver for a configuration text, or for none.
* `Page.loadRom`, `Page.reset`, `Page.keyDown`, `Page.keyUp`, `Page.tick`, `Page.refresh`, `Page.stop`,
  `Page.takeNotifications`, `Page.pendingNotifications`.
-/

namespace EmulatorHost

/-- A line on the console of the page. -/
inductive ConsoleLine where
  | warning (message : String)
  | error (message : String)
  deriving DecidableEq, Repr

/-- A page driver at work. -/
structure Page (σ : Type) where
  rig : Rig σ
  keys : KeyMap
  notices : Notices
  console : Array ConsoleLine

/-- The notice about a session event, if there is one. -/
def SessionEvent.describe : SessionEvent → Option String
  | romLoaded size => some ("loaded ROM (" ++ toString size ++ " bytes)")
  | loadFailed size => some ("ROM rejected (" ++ toString size ++ " bytes)")
  | reset => some "reset"
  | phaseChanged .. => none

namespace Page

variable {σ : Type}

/-- An action on the rig of a page. -/
def onRig {α : Type} (x : Act (Rig σ) α) : Act (Page σ) α :=
  x.within (·.rig) fun r p => { p with rig := r }

/-- An action on the session of a page. -/
def onMachine {α : Type} (x : Act (Machine σ) α) : Act (Page σ) α := onRig (Rig.onMachine x)

/-- Turns the session events so far into notices. -/
def collectEvents : Act (Page σ) Unit := do
  let events ← onMachine Session.drainEvents
  modify fun p => { p with notices := (events.filterMap (·.describe)).foldl Notices.push p.notices }

/-- Adds a fault to the notices, and to the console unless it repeats the last one. -/
def notifyFault (what message : String) : Act (Page σ) Unit :=
  modify fun p =>
    let text := what ++ " fault: " ++ message
    let (isNew, notices) := p.notices.fault text
    { p with notices, console := if isNew then p.console.push (.error text) else p.console }

/-- A page driver for a configured core. A step unit other than the core's is worth a notice. -/
def configured (core : Core σ) (config : Config) (cadence : Cadence) (world : σ) : Page σ :=
  let machine := Machine.configured core config world
  let p : Page σ := ⟨⟨machine, .fresh cadence⟩, config.keyMap, .empty, #[]⟩
  if cadence.unit = core.unit then p
  else
    let text := "configured for " ++ cadence.unit.label ++ " steps but the core steps by " ++ core.unit.label
    { p with notices := p.notices.push text, console := p.console.push (.warning text) }

/-- A page driver for a configuration text, or for the standard configuration. -/
def create (core : Core σ) (text : Option String) (world : σ) : Except ConfigError (Page σ) := do
  let config ← match text with
    | some text => Config.ofJson text
    | none => .ok .standard
  return configured core config (← config.cadence core.unit) world

/-- Hands an image to the core. -/
def loadRom (core : Core σ) (rom : ByteArray) : Act (Page σ) (Except LoadError Unit) := do
  let result ← onMachine (Session.loadRom core rom)
  collectEvents
  return result

/-- Resets a running core; whether there was one. -/
def reset (core : Core σ) : Act (Page σ) Bool := do
  let result ← onMachine (Session.reset core)
  collectEvents
  return result

/-- Applies a key that moved; whether it is bound, so that the page can swallow it. -/
def key (core : Core σ) (name : String) (edge : Edge) : Act (Page σ) Bool := do
  match (← get).keys.translate name edge with
  | some event =>
    onMachine (Session.apply core event)
    return true
  | none => return false

/-- Applies a key that went down. -/
def keyDown (core : Core σ) (name : String) : Act (Page σ) Bool := key core name .press

/-- Applies a key that came up. -/
def keyUp (core : Core σ) (name : String) : Act (Page σ) Bool := key core name .release

/-- The callback of the emulation timer: how many milliseconds to wait for the next one, or a negative
number once the driver has stopped. -/
def tick (core : Core σ) (clock : Clock σ) : Act (Page σ) Float := do
  let report ← onRig (Scheduler.tick core clock)
  match report.fault with
  | some message => notifyFault "step" message
  | none => pure ()
  match report.delay with
  | some delay => return delay.toMillis
  | none => return -1

/-- The renderer of a page, which copies the picture by itself. -/
def renderer : Renderer σ := ⟨fun _ _ _ => return .ok ()⟩

/-- The callback of the display: whether there is a new picture. -/
def refresh (core : Core σ) : Act (Page σ) Bool := do
  let report ← onRig (Scheduler.refresh core renderer)
  match report.fault with
  | some message => notifyFault "present" message
  | none => pure ()
  return report.painted

/-- Stops the driver for good. -/
def stop : Act (Page σ) Unit := onRig (modify (·.mapScheduler Scheduler.stop))

/-- The last picture. -/
def frame (p : Page σ) : ByteArray := p.rig.scheduler.display

/-- The word for the phase of the session. -/
def phase (p : Page σ) : String := p.rig.machine.session.phase.word

/-- The notices so far. -/
def takeNotifications : Act (Page σ) (List String) := do
  collectEvents
  let (messages, notices) := (← get).notices.take
  modify fun p => { p with notices }
  return messages

/-- How many notices wait. -/
def pendingNotifications : Act (Page σ) Nat := do
  collectEvents
  return (← get).notices.size

end Page

end EmulatorHost
