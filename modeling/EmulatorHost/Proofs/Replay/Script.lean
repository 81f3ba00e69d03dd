import EmulatorHost.Proofs.Replay.Log
import Mathlib.Data.List.Basic

/-!
# The input that a log stands for

* `inputs`: of the calls on a core, the input it was given and the steps it took.
* `throughStep`: such calls up to a step.
* `InputLog.script`: the calls that a log stands for, tick by tick.
* **`InputLog.throughStep_script`**: through as many steps as it has ticks, a script is all there is.
-/

namespace EmulatorHost

/-- What a call tells the core about input or steps, whatever comes of it. -/
def Exchange.input? : Exchange → Option CoreCall
  | updateKey input _ => some (.updateKey input)
  | step _ => some .step
  | _ => none

/-- The input the core was given and the steps it took, in order. -/
def inputs (xs : List Exchange) : List CoreCall := xs.filterMap Exchange.input?

@[simp] theorem inputs_nil : inputs [] = [] := rfl

theorem inputs_append (xs ys : List Exchange) : inputs (xs ++ ys) = inputs xs ++ inputs ys :=
  List.filterMap_append

theorem inputs_eq_nil {xs : List Exchange} (h : ∀ x ∈ xs, x.isInput = false) : inputs xs = [] := by
  refine List.filterMap_eq_nil_iff.mpr fun x hx => ?_
  have := h x hx
  cases x <;> first | rfl | cases this

/-- The calls up to and including the `n`-th step, or all of them if there are fewer steps. -/
def throughStep : Nat → List CoreCall → List CoreCall
  | 0, _ => []
  | _ + 1, [] => []
  | n + 1, x :: xs => x :: throughStep (if x = .step then n else n + 1) xs

theorem throughStep_append (n : Nat) {es : List CoreCall} (h : CoreCall.step ∉ es) (xs : List CoreCall) :
    throughStep (n + 1) (es ++ .step :: xs) = es ++ .step :: throughStep n xs := by
  induction es with
  | nil => rfl
  | cons e es ih =>
    rw [List.mem_cons, not_or] at h
    rw [List.cons_append, throughStep, if_neg (Ne.symm h.1), ih h.2]
    rfl

/-! ## Scripts -/

/-- Events one by one, as discrete delivery tells them. -/
def Delivery.each : Delivery → List ButtonEvent → List CoreCall
  | .packed, _ => []
  | .discrete, es => es.map fun e => .updateKey (.event e)

/-- The whole controller, as packed delivery tells it before a step. -/
def Delivery.whole : Delivery → ControllerState → List CoreCall
  | .packed, c => [.updateKey (.state c)]
  | .discrete, _ => []

theorem Delivery.each_append (d : Delivery) (es fs : List ButtonEvent) :
    d.each (es ++ fs) = d.each es ++ d.each fs := by
  cases d with
  | packed => rfl
  | discrete => exact List.map_append

@[simp] theorem Delivery.each_nil (d : Delivery) : d.each [] = [] := by cases d <;> rfl

theorem Delivery.step_not_mem (d : Delivery) (es : List ButtonEvent) (c : ControllerState) :
    CoreCall.step ∉ d.each es ++ d.whole c := by
  cases d <;> simp [each, whole]

theorem inputs_forwarded (d : Delivery) (es : List ButtonEvent) :
    inputs (Session.forwarded d es) = d.each es := by
  cases d with
  | packed => rfl
  | discrete =>
    induction es with
    | nil => rfl
    | cons e es ih => exact congrArg (_ :: ·) ih

theorem inputs_announced (s : Session) : inputs s.announced = s.delivery.whole s.controller := by
  unfold Session.announced Delivery.whole
  cases s.delivery <;> rfl

namespace InputLog

variable (d : Delivery) (c : ControllerState) (l : InputLog)

/-- The calls of a tick: its events, and the step after them. -/
def tickCalls (n : Nat) : List CoreCall :=
  d.each (l.eventsAt n) ++ d.whole (c.applyAll (l.eventsBefore (n + 1))) ++ [.step]

/-- The calls of the first `n` ticks of a log, for a controller that is `c` at its start. -/
def script (n : Nat) : List CoreCall := (List.range n).flatMap (l.tickCalls d c)

theorem script_succ (n : Nat) : l.script d c (n + 1) = l.script d c n ++ l.tickCalls d c n := by
  rw [script, List.range_succ, List.flatMap_append, List.flatMap_singleton]
  rfl

theorem script_add {n : Nat} (fits : n < UInt64.size) (e : ButtonEvent) :
    (l.add n e).script d c n = l.script d c n := by
  refine List.flatMap_congr fun m hm => ?_
  have before := List.mem_range.mp hm
  rw [tickCalls, tickCalls, eventsAt_add_of_lt before fits, eventsBefore_add_of_le before fits]

theorem throughStep_flatMap (ns : List Nat) (xs : List CoreCall) :
    throughStep ns.length (ns.flatMap (l.tickCalls d c) ++ xs) = ns.flatMap (l.tickCalls d c) := by
  induction ns with
  | nil => rw [List.length_nil, throughStep, List.flatMap_nil]
  | cons n ns ih =>
    rw [List.flatMap_cons, tickCalls, List.length_cons, List.append_assoc, List.append_assoc,
      List.singleton_append, throughStep_append _ (d.step_not_mem _ _), ih]
    simp

/-- **Through as many steps as it has ticks, a script is all there is.** -/
theorem throughStep_script (n : Nat) (xs : List CoreCall) :
    throughStep n (l.script d c n ++ xs) = l.script d c n := by
  have h := throughStep_flatMap d c l (List.range n) xs
  rw [List.length_range] at h
  exact h

end InputLog

end EmulatorHost
