import EmulatorHost.Host.Scheduler

/-!
# The host loop

One thread with two timers that are armed again and again: one for steps, one for pictures. Input is
drained before every tick. The loop runs until it is asked to stop, and stops the scheduler as well.

* `HostLoop`: the parties of a loop and the spacing of its pictures.
* `LoopStats`: what a run counted.
* `HostLoop.turn`: one turn of the loop; `HostLoop.run`: turns until the loop is asked to stop.
-/

namespace EmulatorHost

/-- The parties of a host loop in a world `σ`. -/
structure HostLoop (σ : Type) where
  core : Core σ
  clock : Clock σ
  renderer : Renderer σ
  input : InputSource σ
  /-- Whether the loop has been asked to stop. -/
  stopRequested : σ → Bool
  refreshInterval : Duration

/-- What a run of the loop counted. A turn adds at most two to any count, so that all of them stay below
`2 ^ 64` for half as many turns. -/
structure LoopStats where
  ticks : Nat
  steps : Nat
  paints : Nat
  faults : Nat
  deriving DecidableEq, Repr

namespace LoopStats

/-- Nothing counted yet. -/
def zero : LoopStats := ⟨0, 0, 0, 0⟩

/-- Counts a tick. -/
def addTick (s : LoopStats) (r : TickReport) : LoopStats :=
  { s with ticks := s.ticks + 1, steps := s.steps + r.stepped.toNat, faults := s.faults + r.fault.isSome.toNat }

/-- Counts a refresh. -/
def addRefresh (s : LoopStats) (r : RefreshReport) : LoopStats :=
  { s with paints := s.paints + r.painted.toNat, faults := s.faults + r.fault.isSome.toNat }

end LoopStats

/-- What a loop knows between two turns. -/
structure LoopState where
  stats : LoopStats
  nextTick : Duration
  nextRefresh : Duration
  deriving DecidableEq

/-- How a part of a turn ended. -/
inductive TurnEnd where
  | goOn (s : LoopState)
  | leave (stats : LoopStats)
  deriving DecidableEq

namespace HostLoop

variable {σ : Type}

/-- Whether the loop has been asked to stop. -/
def stopping (h : HostLoop σ) : Act (Rig σ) Bool := return h.stopRequested (← get).machine.world

/-- Applies events until the source has none for now; false if that takes more than `fuel` polls. -/
def drain (h : HostLoop σ) : Nat → Act (Rig σ) Bool
  | 0 => return false
  | fuel + 1 => do
    match ← Rig.call h.input.poll with
    | none => return true
    | some event =>
      Rig.onMachine (Session.apply h.core event)
      drain h fuel

/-- Ticks, and arms the timer for the next tick. A stopped scheduler ends the loop. -/
def tickTurn (h : HostLoop σ) (s : LoopState) : Act (Rig σ) TurnEnd := do
  let report ← Scheduler.tick h.core h.clock
  let stats := s.stats.addTick report
  match report.delay with
  | none => return .leave stats
  | some delay =>
    let nextTick ← Act.ofExcept ((← Rig.call h.clock.now).after delay)
    return .goOn { s with stats, nextTick }

/-- Shows a picture if one is due, and waits for the earlier timer. -/
def refreshTurn (h : HostLoop σ) (now : Duration) (s : LoopState) : Act (Rig σ) LoopState := do
  let s ←
    if s.nextRefresh ≤ now then do
      let report ← Scheduler.refresh h.core h.renderer
      let nextRefresh ← Act.ofExcept (now.after h.refreshInterval)
      pure { s with stats := s.stats.addRefresh report, nextRefresh }
    else pure s
  let wake := s.nextTick.min s.nextRefresh
  let now ← Rig.call h.clock.now
  if now < wake then Rig.call (h.clock.sleep (wake - now))
  return s

/-- One turn of the loop; none if the input does not run dry within `fuel` polls. -/
def turn (h : HostLoop σ) (fuel : Nat) (s : LoopState) : Act (Rig σ) (Option TurnEnd) := do
  let now ← Rig.call h.clock.now
  let ticked ←
    if s.nextTick ≤ now then do
      if ← h.drain fuel then some <$> h.tickTurn s else pure none
    else pure (some (.goOn s))
  match ticked with
  | none => return none
  | some (.leave stats) => return some (.leave stats)
  | some (.goOn s) =>
    if ← h.stopping then return some (.leave s.stats)
    else return some (.goOn (← h.refreshTurn now s))

/-- Turns until the loop is left; none if that takes more than `fuel` turns or polls. -/
def turns (h : HostLoop σ) : Nat → LoopState → Act (Rig σ) (Option LoopStats)
  | 0, _ => return none
  | fuel + 1, s => do
    if ← h.stopping then return some s.stats
    else
      match ← h.turn fuel s with
      | none => return none
      | some (.leave stats) => return some stats
      | some (.goOn s) => turns h fuel s

/-- Runs the loop until it is asked to stop, and stops the scheduler; none if it takes more than `fuel`
turns or polls. -/
def run (h : HostLoop σ) (fuel : Nat) : Act (Rig σ) (Option LoopStats) := do
  let start ← Rig.call h.clock.now
  match ← h.turns fuel ⟨.zero, start, start⟩ with
  | none => return none
  | some stats =>
    modify (·.mapScheduler Scheduler.stop)
    modify (·.note .info ("host loop stopped after " ++ toString stats.ticks ++ " ticks, "
      ++ toString stats.steps ++ " steps, " ++ toString stats.paints ++ " paints"))
    return some stats

end HostLoop

end EmulatorHost
