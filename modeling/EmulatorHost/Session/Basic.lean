import EmulatorHost.Config.Basic
import EmulatorHost.Host.Core
import EmulatorHost.Journal
import EmulatorHost.Picture.FrameBuffer
import EmulatorHost.Replay.Tape

/-!
# Sessions

* `Phase`: where a session stands between no image and a running core.
* `SessionEvent`: what a host may want to tell people about.
* `Session`: all that a session keeps; `Session.fresh`.
* `Machine`: a session, the world its collaborators act on, and the journal.
-/

namespace EmulatorHost

/-- Where a session stands. -/
inductive Phase where
  /-- No image has been accepted yet. -/
  | idle
  /-- An image has been accepted and the core has not been reset since. -/
  | romLoaded
  | running
  /-- The core is being reset and takes no steps. -/
  | paused
  deriving DecidableEq, Repr, Inhabited

/-- The name of a phase as shown to people. -/
def Phase.label : Phase → String
  | idle => "Idle"
  | romLoaded => "RomLoaded"
  | running => "Running"
  | paused => "Paused"

/-- The word for a phase, for pages and logs. -/
def Phase.word : Phase → String
  | idle => "idle"
  | romLoaded => "rom_loaded"
  | running => "running"
  | paused => "paused"

/-- Something a host may want to tell people about. -/
inductive SessionEvent where
  | phaseChanged (source target : Phase)
  | romLoaded (size : Nat)
  | loadFailed (size : Nat)
  | reset
  deriving DecidableEq, Repr

/-- All that a session keeps. -/
structure Session where
  phase : Phase
  controller : ControllerState
  delivery : Delivery
  /-- Where the picture begins in the memory of the core. -/
  base : Nat
  /-- Steps of the core attempted so far. -/
  steps : UInt64
  /-- Events not yet collected, the oldest first. -/
  events : List SessionEvent
  recorder : Option Recorder
  playback : Option Playback
  deriving DecidableEq

namespace Session

/-- A session whose core has the picture at `base`. -/
def fresh (base : Nat) (delivery : Delivery) : Session :=
  ⟨.idle, .empty, delivery, base, 0, [], none, none⟩

/-- Whether the core takes steps. -/
def isRunning (s : Session) : Bool := s.phase == .running

/-- Whether input is being recorded. -/
def isRecording (s : Session) : Bool := s.recorder.isSome

/-- Whether a log is being played. -/
def isPlaying (s : Session) : Bool := s.playback.isSome

/-- Where the picture lies. -/
def frameBuffer (s : Session) : FrameBuffer := .standard s.base

end Session

/-- A session at work: what it keeps, the world around it, and what the host has written down. -/
structure Machine (σ : Type) where
  session : Session
  world : σ
  journal : Journal

namespace Machine

variable {σ : Type}

/-- Writes a message into the journal. -/
def note (level : Level) (message : String) (m : Machine σ) : Machine σ :=
  { m with journal := m.journal.push ⟨level, message⟩ }

/-- Changes what the session keeps. -/
def mapSession (f : Session → Session) (m : Machine σ) : Machine σ := { m with session := f m.session }

/-- Adds a session event. -/
def emit (e : SessionEvent) (m : Machine σ) : Machine σ :=
  m.mapSession fun s => { s with events := s.events ++ [e] }

/-- Enters a phase. Staying where the session is leaves no trace. -/
def enter (target : Phase) (m : Machine σ) : Machine σ :=
  let source := m.session.phase
  if source = target then m
  else
    ((m.note .debug ("session phase " ++ source.label ++ " -> " ++ target.label)).mapSession
      fun s => { s with phase := target }).emit (.phaseChanged source target)

/-- A machine with a fresh session for a core. -/
def fresh (core : Core σ) (delivery : Delivery) (world : σ) : Machine σ :=
  ⟨.fresh core.base delivery, world, #[]⟩

/-- A machine with a fresh configured session. A step unit other than the core's is worth a warning. -/
def configured (core : Core σ) (config : Config) (world : σ) : Machine σ :=
  let m := fresh core config.delivery world
  match config.stepUnit with
  | some u =>
    if u = core.unit then m
    else m.note .warn ("core steps by " ++ core.unit.label ++ " but the driver is configured for " ++ u.label)
  | none => m

end Machine

end EmulatorHost
