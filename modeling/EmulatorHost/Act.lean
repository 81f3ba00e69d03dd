/-!
# What a collaborator does

The host works with parties it does not control: a core, a clock, a renderer, a source of input.
What one of them does is an `Act` on a world `σ`: it answers or panics, and either way leaves the world
changed. They all share one world, so a step of the core may take time on the clock, and any of them
may ask for the host loop to stop.

* `Panic`, `Failure`, `Fault`: a panic, a reported failure, and either of them.
* `Act`: an action on a world.
* `Act.within`: an action on a part of a world.
* `Act.guarded`: an action whose panic is turned into a fault; **`Act.guarded_ne_error`**: it never panics.
-/

namespace EmulatorHost

/-- A panic. It may carry a text, or something else. -/
inductive Panic where
  | text (message : String)
  | other
  deriving DecidableEq, Repr

/-- A reported failure and what caused it, the outermost account first. -/
structure Failure where
  causes : List String
  deriving DecidableEq, Repr

/-- The wording of a failure, with what caused it. -/
def Failure.message (f : Failure) : String := ": ".intercalate f.causes

/-- What a collaborator did wrong. -/
inductive Fault where
  | failure (f : Failure)
  | panic (p : Panic)
  deriving DecidableEq, Repr

/-- The wording of a fault. -/
def Fault.message : Fault → String
  | failure f => f.message
  | panic (.text s) => "panic: " ++ s
  | panic .other => "panic"

/-- An action on a world: an answer or a panic, and the world it leaves. -/
abbrev Act (σ : Type) := EStateM Panic σ

namespace Act

variable {σ τ α : Type}

/-- An action on the part of a world that `get` finds and `put` replaces. -/
def within (get : τ → σ) (put : σ → τ → τ) (x : Act σ α) : Act τ α := fun w =>
  match x (get w) with
  | .ok a v => .ok a (put v w)
  | .error p v => .error p (put v w)

/-- An action that reports its panic as a fault. -/
def guarded (x : Act σ (Except Failure α)) : Act σ (Except Fault α) := fun w =>
  match x w with
  | .ok (.ok a) v => .ok (.ok a) v
  | .ok (.error f) v => .ok (.error (.failure f)) v
  | .error p v => .ok (.error (.panic p)) v

/-- **A guarded action does not panic.** -/
theorem guarded_ne_error (x : Act σ (Except Failure α)) (w v : σ) (p : Panic) :
    guarded x w ≠ .error p v := by
  unfold guarded
  split <;> simp

/-- The answer of a computation that may panic. -/
def ofExcept : Except Panic α → Act σ α
  | .ok a => pure a
  | .error p => throw p

end Act

end EmulatorHost
