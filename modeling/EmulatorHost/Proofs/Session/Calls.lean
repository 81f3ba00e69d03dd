import EmulatorHost.Proofs.Session.Beside

/-!
# The calls a session makes on its core

A traced core writes down every call that changes it, with its arguments and its outcome.

* `KeysReturn`: no input made the core panic.
* `Traced`: a world with the calls so far beside it, the oldest first.
* `Core.traced`: the traced core; **`Machine.run_traced`**: writing the calls down does not change a run.
* `Machine.calls`: the calls of a run; **`Machine.calls_append`**: run after run, the calls add up.
-/

namespace EmulatorHost

namespace Exchange

/-- Whether a call gives input to the core or steps it. -/
def isInput : Exchange → Bool
  | updateKey _ _ => true
  | step _ => true
  | _ => false

/-- Whether a call resets the core. -/
def isReset : Exchange → Bool
  | reset _ => true
  | _ => false

/-- Whether a call steps the core. -/
def isStep : Exchange → Bool
  | step _ => true
  | _ => false

end Exchange

/-- No call that tells the core about input panics. -/
def KeysReturn (xs : List Exchange) : Prop := ∀ input p, Exchange.updateKey input (.error p) ∉ xs

theorem KeysReturn.left {xs ys : List Exchange} (h : KeysReturn (xs ++ ys)) : KeysReturn xs :=
  fun input p hx => h input p (List.mem_append_left _ hx)

theorem KeysReturn.right {xs ys : List Exchange} (h : KeysReturn (xs ++ ys)) : KeysReturn ys :=
  fun input p hx => h input p (List.mem_append_right _ hx)

/-- A world with the calls made on its core beside it, the oldest first. -/
abbrev Traced (σ : Type) := σ × List Exchange

variable {σ : Type}

/-- The core that writes down the calls that change it. -/
def Core.traced (core : Core σ) : Core (Traced σ) := core.noting fun e calls => calls ++ [e]

namespace Machine

/-- A machine whose core has not been called yet. -/
def traced (m : Machine σ) : Machine (Traced σ) := m.view (·, [])

/-- The calls that operations make, the first one first. -/
def calls (core : Core σ) (ops : List Op) (m : Machine σ) : List Exchange :=
  (run core.traced ops m.traced).world.2

end Machine

/-! ## A traced core is no other core -/

variable (core : Core σ)

theorem Core.traced_projects : core.traced.Projects Prod.fst core := core.noting_projects _

theorem Core.traced_since (before : List Exchange) :
    core.traced.Projects (Prod.map id (before ++ ·)) core.traced :=
  core.noting_map _ fun _ _ => (List.append_assoc ..).symm

namespace Machine

/-- **Writing the calls down does not change a run.** -/
theorem run_traced (ops : List Op) (m : Machine (Traced σ)) :
    (run core.traced ops m).view Prod.fst = run core ops (m.view Prod.fst) :=
  run_view core.traced_projects m ops

@[simp] theorem calls_nil (m : Machine σ) : calls core [] m = [] := rfl

/-- **Run after run, the calls add up.** -/
theorem calls_append (front back : List Op) (m : Machine σ) :
    calls core (front ++ back) m = calls core front m ++ calls core back (run core front m) := by
  have split : run core.traced front m.traced =
      (run core front m).traced.view (Prod.map id (calls core front m ++ ·)) := by
    have h := run_traced core front m.traced
    change (run core.traced front m.traced).view Prod.fst = run core front m at h
    rw [← h, calls]
    simp [view, traced]
  rw [calls, run_append, split, ← run_view (core.traced_since _)]
  rfl

theorem calls_cons (op : Op) (ops : List Op) (m : Machine σ) :
    calls core (op :: ops) m = calls core [op] m ++ calls core ops ((op.act core).after m) :=
  calls_append core [op] ops m

end Machine

end EmulatorHost
