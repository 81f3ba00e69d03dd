import EmulatorHost.Session.Operations

/-!
# Pacing

A scheduler takes steps of the core at least an interval apart and hands pictures to a renderer. Faults
of the core and of the renderer are written down, counted and reported; neither entry point fails.

* `Scheduler`: cadence, time of the last step, last picture, number of faults, and whether it stopped.
* `Rig`: a machine with a scheduler.
* `Scheduler.tick`: takes at most one step, and says how long to wait for the next tick.
* `Scheduler.refresh`: shows the picture.
-/

namespace EmulatorHost

/-- What a scheduler keeps. -/
structure Scheduler where
  cadence : Cadence
  /-- When the last step was attempted. -/
  lastStep : Option Duration
  /-- The last picture handed to the renderer. -/
  display : ByteArray
  /-- The faults so far, at most one a callback. The count stays below `2 ^ 64` for as many callbacks. -/
  faults : Nat
  stopped : Bool

/-- What a tick did. -/
structure TickReport where
  stepped : Bool
  /-- How long to wait for the next tick; none once the scheduler has stopped. -/
  delay : Option Duration
  fault : Option String
  deriving DecidableEq

/-- What a refresh did. -/
structure RefreshReport where
  painted : Bool
  fault : Option String
  deriving DecidableEq

/-- A machine with the scheduler that paces it. -/
structure Rig (σ : Type) where
  machine : Machine σ
  scheduler : Scheduler

namespace Rig

variable {σ : Type}

/-- An action on the machine of a rig. -/
def onMachine {α : Type} (x : Act (Machine σ) α) : Act (Rig σ) α :=
  x.within (·.machine) fun m r => { r with machine := m }

/-- An action of a collaborator. -/
def call {α : Type} (x : Act σ α) : Act (Rig σ) α := onMachine (Session.call x)

/-- Writes a message into the journal. -/
def note (level : Level) (message : String) (r : Rig σ) : Rig σ :=
  { r with machine := r.machine.note level message }

/-- Changes what the scheduler keeps. -/
def mapScheduler (f : Scheduler → Scheduler) (r : Rig σ) : Rig σ := { r with scheduler := f r.scheduler }

end Rig

namespace Scheduler

variable {σ : Type}

/-- A scheduler that has done nothing yet. -/
def fresh (cadence : Cadence) : Scheduler := ⟨cadence, none, .empty, 0, false⟩

/-- Stops a scheduler for good. -/
def stop (s : Scheduler) : Scheduler := { s with stopped := true }

/-- Whether a step is due: none has been attempted, or the last one a full interval ago. -/
def isDue (s : Scheduler) (now : Duration) : Bool :=
  match s.lastStep with
  | none => true
  | some last => s.cadence.interval ≤ now - last

/-- Counts a fault and writes it down; its wording. -/
def fault (what : String) (f : Fault) : Act (Rig σ) String := do
  modify (·.mapScheduler fun s => { s with faults := s.faults + 1 })
  let n := (← get).scheduler.faults
  modify (·.note .error (what ++ " fault #" ++ toString n ++ ": " ++ f.message))
  return f.message

/-- Attempts a step and re-arms from now on, however late it is: a late or slow step is never made up
for by steps in quick succession. -/
def attempt (core : Core σ) (now : Duration) : Act (Rig σ) (Except String Bool) := do
  modify (·.mapScheduler fun s => { s with lastStep := some now })
  match ← (Rig.onMachine (Session.step core)).guarded with
  | .ok stepped => return .ok stepped
  | .error f => return .error (← fault "step" f)

/-- The callback of the emulation timer. -/
def tick (core : Core σ) (clock : Clock σ) : Act (Rig σ) TickReport := do
  if (← get).scheduler.stopped then return ⟨false, none, none⟩
  let now ← Rig.call clock.now
  let r ← get
  let running := r.machine.session.isRunning
  let outcome ← if running && r.scheduler.isDue now then attempt core now else pure (.ok false)
  let s := (← get).scheduler
  let reference := if running then s.lastStep.getD now else now
  let elapsed := (← Rig.call clock.now) - reference
  let delay := s.cadence.interval - elapsed
  match outcome with
  | .ok stepped => return ⟨stepped, some delay, none⟩
  | .error message => return ⟨false, some delay, some message⟩

/-- Expands the picture of the core into the buffer of the scheduler. -/
def present (core : Core σ) : Act (Rig σ) (Except Failure Unit) := do
  match ← Rig.onMachine (Session.display core (← get).scheduler.display) with
  | .ok picture =>
    modify (·.mapScheduler fun s => { s with display := picture })
    return .ok ()
  | .error e => return .error ⟨[e.message]⟩

/-- The callback of the display. It does nothing unless the session runs, which leaves the last picture
on screen. -/
def refresh (core : Core σ) (renderer : Renderer σ) : Act (Rig σ) RefreshReport := do
  let r ← get
  if r.scheduler.stopped || !r.machine.session.isRunning then return ⟨false, none⟩
  let fb := r.machine.session.frameBuffer
  modify (·.mapScheduler fun s => { s with display := FrameBuffer.resized s.display fb.displaySize 255 })
  match ← (present core).guarded with
  | .error f => return ⟨false, some (← fault "present" f)⟩
  | .ok () =>
    match ← (Rig.call (renderer.paint (← get).scheduler.display fb.width fb.height)).guarded with
    | .error f => return ⟨false, some (← fault "paint" f)⟩
    | .ok () => return ⟨true, none⟩

end Scheduler

end EmulatorHost
