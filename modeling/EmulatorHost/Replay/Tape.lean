import EmulatorHost.Act
import EmulatorHost.Replay.Log

/-!
# Recording and playing back

Ticks of a log count steps from where its recording, or its playback, began.

* `stepsSince`, `InputLog.slice`: steps since a tape began, and a range of a log; a panic where there is none.
* `Recorder`: a log under way; `Recorder.record` stamps an event.
* `Playback`: a log being played; `Playback.due` yields the events that are due and goes past them.
-/

namespace EmulatorHost

/-- Steps since the start of a tape, which began at step `origin`. -/
def stepsSince (origin steps : UInt64) : Except Panic UInt64 :=
  if origin ≤ steps then .ok (steps - origin) else .error (.text "attempt to subtract with overflow")

/-- The entries of a log from one position to another. Both have to lie in the log, in this order. -/
def InputLog.slice (l : InputLog) (start stop : Nat) : Except Panic (List InputEntry) :=
  if stop < start then
    .error (.text ("slice index starts at " ++ toString start ++ " but ends at " ++ toString stop))
  else if l.size < stop then
    .error (.text ("range end index " ++ toString stop ++ " out of range for slice of length " ++ toString l.size))
  else .ok (l.entries.extract start stop)

/-- A recording under way. -/
structure Recorder where
  log : InputLog
  origin : UInt64
  deriving DecidableEq, Repr

namespace Recorder

/-- A recording that begins at step `origin`. -/
def start (origin : UInt64) : Recorder := ⟨.empty, origin⟩

/-- Adds an event that was applied before step `steps`. -/
def record (r : Recorder) (steps : UInt64) (event : ButtonEvent) : Except Panic Recorder := do
  let tick ← stepsSince r.origin steps
  match r.log.push? tick event with
  | some log => return { r with log }
  | none => throw (.text "an input log never goes back")

end Recorder

/-- A log being played, and how many of its entries have been delivered. -/
structure Playback where
  log : InputLog
  next : Nat
  origin : UInt64
  deriving DecidableEq, Repr

namespace Playback

/-- A playback that begins at step `origin`. -/
def start (log : InputLog) (origin : UInt64) : Playback := ⟨log, 0, origin⟩

/-- The entries not yet delivered. -/
def rest (p : Playback) : List InputEntry := p.log.entries.drop p.next

/-- The entries not yet delivered whose tick has come, up to the first whose tick has not. -/
def dueEntries (p : Playback) (tick : UInt64) : List InputEntry := p.rest.takeWhile fun e => e.tick ≤ tick

/-- The position past the entries whose tick has come. -/
def reach (p : Playback) (tick : UInt64) : Nat := p.next + (p.dueEntries tick).length

/-- The events due before step `steps`, and the playback past them. -/
def due (p : Playback) (steps : UInt64) : Except Panic (List ButtonEvent × Playback) := do
  let tick ← stepsSince p.origin steps
  let next := p.reach tick
  let es ← p.log.slice p.next next
  return (es.map (·.event), { p with next })

/-- Whether every entry has been delivered. -/
def isFinished (p : Playback) : Bool := p.log.size ≤ p.next

end Playback

end EmulatorHost
