import EmulatorHost.Bench.Core
import EmulatorHost.Host.Loop

/-!
# A scripted world

Everything a host works with, scripted and in one place: a core, a clock moved by hand, a renderer, a
source of input and the wish to stop.

* `BenchScript`: what stays the same; `Bench`: what changes.
* `Bench.core`, `Bench.clock`, `Bench.renderer`, `Bench.input`: the parties.
-/

namespace EmulatorHost

/-- How a scripted world behaves. -/
structure BenchScript where
  core : CoreScript
  /-- How long painting takes, if it moves the clock at all. -/
  paintCost : Option Duration
  /-- Paintings that panic, counted from zero. -/
  paintPanics : List Nat
  /-- Paintings that fail, counted from zero. -/
  paintFailures : List Nat
  /-- The step, counted from zero, that asks to stop as it begins. -/
  stopAtStep : Option Nat
  /-- The painting, counted from one, that asks to stop. -/
  stopAtPaint : Option Nat
  /-- The poll for input, counted from one, that asks to stop. -/
  stopAtPoll : Option Nat

/-- What a renderer was given. -/
structure Painted where
  time : Duration
  width : Nat
  height : Nat
  first : ByteArray
  last : ByteArray

/-- What changes about a scripted world. -/
structure Bench where
  clock : ManualClock
  core : ScriptedCore
  /-- When each step began, the latest first. -/
  stepTimes : List Duration
  /-- What the renderer was given, the latest first. -/
  paints : List Painted
  /-- The last picture painted. -/
  picture : ByteArray
  /-- Events to come, each from a time on, the next one first. -/
  pending : List (Duration × ButtonEvent)
  polls : Nat
  stopRequested : Bool

namespace Bench

/-- An action of the core. -/
def onCore {α : Type} (x : Act ScriptedCore α) : Act Bench α :=
  x.within (·.core) fun c b => { b with core := c }

/-- An action of the clock. -/
def onClock {α : Type} (x : Act ManualClock α) : Act Bench α :=
  x.within (·.clock) fun c b => { b with clock := c }

/-- Asks to stop if this is the moment for it. -/
def stopIf (now : Bool) : Act Bench Unit :=
  modify fun b => if now then { b with stopRequested := true } else b

/-- Lets time pass. -/
def spend : Option Duration → Act Bench Unit
  | some span => onClock (ManualClock.advance span)
  | none => return

/-- The text of a numbered event. -/
def numbered (before : String) (n : Nat) (after : String) : String := before ++ toString n ++ after

/-- One step of the scripted core. -/
def takeStep (s : BenchScript) : Act Bench (Except Failure Unit) := do
  modify fun b => { b with stepTimes := b.clock.now :: b.stepTimes }
  let n ← onCore (ScriptedCore.record .step)
  stopIf (s.stopAtStep == some n)
  spend s.core.cost
  if s.core.panicking.contains n then throw (.text (numbered "mock core panicked on step " n ""))
  if s.core.failing.contains n then return .error ⟨[numbered "mock core failed on step " n ""]⟩
  if s.core.panickingLate.contains n then throw (.text "scripted str panic")
  if s.core.panickingSilently.contains n then throw .other
  match s.core.failingLate.lookup n with
  | some causes => return .error ⟨causes⟩
  | none => return .ok ()

/-- A call that the script may let panic after it was written down. -/
def recorded (call : CoreCall) (panics : List Nat) (text : String) : Act Bench Unit := do
  if panics.contains (← onCore (ScriptedCore.record call)) then throw (.text text)

/-- The scripted core. -/
def scriptedCore (s : BenchScript) : Core Bench where
  reset := recorded .reset s.core.resetPanics "scripted reset panic"
  load rom := do
    recorded (.load rom.size) s.core.loadPanics "scripted load panic"
    return (← get).core.acceptsRoms
  step := takeStep s
  updateKey input := recorded (.updateKey input) s.core.keyPanics "scripted key panic"
  memory := return (← get).core.memory
  base := s.core.base
  unit := s.core.unit

/-- The clock moved by hand. -/
def manualClock : Clock Bench := ⟨onClock ManualClock.clock.now, fun span => onClock (ManualClock.clock.sleep span)⟩

/-- Writes down what a renderer was given; how many times one was called before. -/
def recordPaint (picture : ByteArray) (width height : Nat) : Act Bench Nat := do
  let b ← get
  let last := picture.extract (picture.size - 4) picture.size
  set { b with
    paints := ⟨b.clock.now, width, height, picture.extract 0 4, last⟩ :: b.paints
    picture }
  return b.paints.length

/-- The scripted renderer. -/
def scriptedRenderer (s : BenchScript) : Renderer Bench where
  paint picture width height := do
    let n ← recordPaint picture width height
    spend s.paintCost
    stopIf (s.stopAtPaint == some (n + 1))
    if s.paintPanics.contains n then throw (.text (numbered "paint " n " panicked"))
    if s.paintFailures.contains n then return .error ⟨[numbered "paint " n " failed"]⟩
    return .ok ()

/-- A renderer that comes to a given end. -/
def endingRenderer (outcome : Except Fault Unit) : Renderer Bench where
  paint picture width height := do
    let _ ← recordPaint picture width height
    match outcome with
    | .ok () => return .ok ()
    | .error (.failure f) => return .error f
    | .error (.panic p) => throw p

/-- The scripted source: the next event, once its time has come. -/
def scriptedInput (s : BenchScript) : InputSource Bench where
  poll := do
    modify fun b => { b with polls := b.polls + 1 }
    let b ← get
    stopIf (s.stopAtPoll == some b.polls)
    match b.pending with
    | [] => return none
    | (time, event) :: rest =>
      if time ≤ b.clock.now then
        modify fun b => { b with pending := rest }
        return some event
      else return none

end Bench

end EmulatorHost
