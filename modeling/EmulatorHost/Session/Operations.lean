import EmulatorHost.Error
import EmulatorHost.Session.Basic

/-!
# What a session does

Everything that reaches the core goes through the session, which lets it pass only in the phase where
it belongs.

* `Session.loadRom`, `Session.reset`: a new image, or the same one from its start.
* `Session.apply`: a live event, dropped unless the core runs and no log is played.
* `Session.step`: one step of the core, after the input that is due.
* `Session.display`: the picture.
* `Session.startRecording`, `Session.stopRecording`, `Session.play`.

A panic of the core ends the operation where it stands.
-/

namespace EmulatorHost.Session

variable {σ : Type}

/-- An action of a collaborator of the machine. -/
def call {α : Type} (x : Act σ α) : Act (Machine σ) α :=
  x.within (·.world) fun w m => { m with world := w }

/-- Takes the events not yet collected. -/
def drainEvents : Act (Machine σ) (List SessionEvent) := do
  let events := (← get).session.events
  modify (·.mapSession fun s => { s with events := [] })
  return events

/-! ## Images and resets -/

/-- Resets the core. No step may run against a core that is half reset. -/
def resetCore (core : Core σ) : Act (Machine σ) Unit := do
  modify (·.enter .paused)
  call core.reset
  modify (·.enter .running)

/-- Hands an image to the core. An accepted image is followed by a reset and the session runs; a refused
one changes nothing. -/
def loadRom (core : Core σ) (rom : ByteArray) : Act (Machine σ) (Except LoadError Unit) := do
  if ← call (core.load rom) then
    modify fun m => (((m.note .info ("loaded ROM image of " ++ toString rom.size ++ " bytes")).emit
      (.romLoaded rom.size)).enter .romLoaded)
    resetCore core
    return .ok ()
  else
    modify fun m => (m.note .warn ("core rejected ROM image of " ++ toString rom.size ++ " bytes")).emit
      (.loadFailed rom.size)
    return .error ⟨rom.size⟩

/-- Resets a running core; whether there was one. -/
def reset (core : Core σ) : Act (Machine σ) Bool := do
  if (← get).session.isRunning then
    modify (·.note .info "resetting core")
    resetCore core
    modify (·.emit .reset)
    return true
  else return false

/-! ## Input -/

/-- Applies an event to the controller, and passes it on where the core takes single events. -/
def deliver (core : Core σ) (event : ButtonEvent) : Act (Machine σ) Unit := do
  modify (·.mapSession fun s => { s with controller := s.controller.apply event })
  match (← get).session.delivery with
  | .packed => return
  | .discrete => call (core.updateKey (.event event))

/-- Delivers events one after the other. -/
def deliverAll (core : Core σ) : List ButtonEvent → Act (Machine σ) Unit
  | [] => return
  | e :: es => do
    deliver core e
    deliverAll core es

/-- Adds an applied event to the recording, if there is one. -/
def record (event : ButtonEvent) : Act (Machine σ) Unit := do
  let s := (← get).session
  match s.recorder with
  | none => return
  | some r =>
    let r ← Act.ofExcept (r.record s.steps event)
    modify (·.mapSession fun s => { s with recorder := some r })

/-- Applies a live event. It is dropped unless the session runs, and while a log is played. -/
def apply (core : Core σ) (event : ButtonEvent) : Act (Machine σ) Unit := do
  let s := (← get).session
  if s.isRunning && !s.isPlaying then
    deliver core event
    record event

/-- Applies the press of a button. -/
def press (core : Core σ) (x : Button) : Act (Machine σ) Unit := apply core (.press x)

/-- Applies the release of a button. -/
def release (core : Core σ) (x : Button) : Act (Machine σ) Unit := apply core (.release x)

/-! ## Steps -/

/-- Delivers what the log being played has due. The playback is out of the session while it does, and
comes back unless it is finished. -/
def playDue (core : Core σ) : Act (Machine σ) Unit := do
  let s := (← get).session
  match s.playback with
  | none => return
  | some p =>
    modify (·.mapSession fun s => { s with playback := none })
    let (events, p) ← Act.ofExcept (p.due s.steps)
    deliverAll core events
    if p.isFinished then
      modify (·.note .debug ("input playback finished after " ++ toString s.steps ++ " steps"))
    else modify (·.mapSession fun s => { s with playback := some p })

/-- Counts a step about to be taken. -/
def countStep : Act (Machine σ) Unit := do
  if (← get).session.steps.toNat + 1 < UInt64.size then
    modify (·.mapSession fun s => { s with steps := s.steps + 1 })
  else throw (.text "attempt to add with overflow")

/-- Takes one step of the core, unless the session does not run; whether it took one. -/
def step (core : Core σ) : Act (Machine σ) (Except Failure Bool) := do
  if (← get).session.isRunning then
    playDue core
    let s := (← get).session
    match s.delivery with
    | .packed => call (core.updateKey (.state s.controller))
    | .discrete => pure ()
    countStep
    return (← call core.step).map fun _ => true
  else return .ok false

/-- Expands the picture of the core into a buffer. -/
def display (core : Core σ) (out : ByteArray) : Act (Machine σ) (Except FrameBufferError ByteArray) := do
  let fb := (← get).session.frameBuffer
  let memory ← call core.memory
  match fb.writeDisplay memory out with
  | .error e => return .error e
  | .ok (.whole out) => return .ok out
  | .ok (.cut _) => throw (.text "the picture window ran out")

/-! ## Recording and playing back -/

/-- Starts a recording, in place of one under way. -/
def startRecording : Act (Machine σ) Unit :=
  modify (·.mapSession fun s => { s with recorder := some (.start s.steps) })

/-- Ends the recording and gives its log, if one was under way. -/
def stopRecording : Act (Machine σ) (Option InputLog) := do
  let r := (← get).session.recorder
  modify (·.mapSession fun s => { s with recorder := none })
  return r.map (·.log)

/-- Plays a log from the next step on, in place of one being played. A log without entries is ignored. -/
def play (log : InputLog) : Act (Machine σ) Unit :=
  modify (·.mapSession fun s =>
    if log.isEmpty then s else { s with playback := some (.start log s.steps) })

end EmulatorHost.Session
