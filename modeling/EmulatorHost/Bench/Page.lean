import EmulatorHost.Page.Core

/-!
# A scripted page

* `PageScript`: what a scripted page core throws and how long its steps take.
* `PageBench`: its memory, its time and the calls so far; `PageBench.pageCore`.
-/

namespace EmulatorHost

/-- A call on a core of a page. -/
inductive PageCall where
  | reset
  | load (size : Nat)
  | stepLine
  | key (byte : UInt8)
  deriving DecidableEq, Repr

/-- How a scripted page behaves. -/
structure PageScript where
  /-- Where the picture begins in the memory. -/
  pointer : Nat
  /-- Milliseconds that a step takes. -/
  cost : Float
  /-- What steps throw, counted from zero. -/
  throws : List (Nat × Thrown)
  /-- What all other steps throw. -/
  throwsAlways : Option Thrown

/-- What changes about a scripted page. -/
structure PageBench where
  memory : ByteArray
  acceptsRoms : Bool
  millis : Float
  steps : Nat
  /-- The calls so far, the latest first. -/
  calls : List PageCall
  /-- The host's copy of the picture. -/
  mirror : ByteArray := .empty

namespace PageBench

/-- Writes a call down. -/
def record (call : PageCall) : Act PageBench Unit := modify fun b => { b with calls := call :: b.calls }

/-- Overwrites bytes of the memory, as far as it goes. -/
def overwrite (memory : ByteArray) (start : Nat) : List UInt8 → ByteArray
  | [] => memory
  | x :: xs => overwrite (if start < memory.size then memory.set! start x else memory) (start + 1) xs

/-- Writes bytes into the memory. -/
def poke (b : PageBench) (start : Nat) (bytes : List UInt8) : PageBench :=
  { b with memory := overwrite b.memory start bytes }

/-- The scripted core of the page. -/
def pageCore (s : PageScript) : PageCore PageBench where
  reset := record .reset
  load rom := do
    record (.load rom.size)
    return (← get).acceptsRoms
  stepLine := do
    record .stepLine
    let b ← get
    set { b with millis := b.millis + s.cost, steps := b.steps + 1 }
    match s.throws.lookup b.steps with
    | some t => return .error t
    | none =>
      match s.throwsAlways with
      | some t => return .error t
      | none => return .ok ()
  updateKey byte := record (.key byte)
  memory := return (← get).memory
  pointer := s.pointer
  millis := return (← get).millis
  mirror b := b.mirror
  setMirror mirror b := { b with mirror }

end PageBench

end EmulatorHost
