import EmulatorHost.Proofs.Replay.Fault
import EmulatorHost.Proofs.Replay.Script
import Mathlib.Data.List.Induction

/-!
# What is delivered to the controller

An event is delivered if it is live input that the session takes, or an entry of a log that a step has begun
to deliver.

* `Session.live`, `Session.released`: the two ways an event is delivered.
* **`Rig.delivered_eq_applied`**: exactly these events are applied to the controller.
* `Rig.stamped`: when in a run, counted in steps of the core, such events are delivered.
* `LastPressed`: the last event of a button was a press; **`ControllerState.isPressed_applyAll`**.
* **`Rig.run_lastPressed`**: at every moment of a run the controller holds the buttons last pressed, and
  packed delivery tells the core so before every step.
-/

namespace EmulatorHost

/-! ## Two sources of events -/

namespace Session

/-- The live event that an operation gives the session. It takes one only while it runs and plays no log. -/
def live (s : Session) : Option Op → List ButtonEvent
  | some (.apply e) => if s.isLive then [e] else []
  | _ => []

/-- The entries of a log that an operation began to deliver while it made the calls `xs`. Packed delivery
gets through all that are due before it calls the core at all. Discrete delivery calls the core for each, and
goes no further than a call that panics. -/
def released (s : Session) (op : Option Op) (xs : List Exchange) : List ButtonEvent :=
  match op, s.delivery with
  | some .step, .packed => if xs.isEmpty then [] else s.dueEvents
  | some .step, .discrete => s.dueEvents.take (toldEvents xs).length
  | _, _ => []

/-- The events that an operation delivered while it made the calls `xs`. -/
def delivered (s : Session) (op : Option Op) (xs : List Exchange) : List ButtonEvent :=
  s.live op ++ s.released op xs

variable {s s' : Session} {op : Op} {xs : List Exchange}

theorem released_nil (s : Session) (op : Option Op) : s.released op [] = [] := by
  unfold released
  split <;> rfl

theorem delivered_of_ne {op : Option Op} (apply : ∀ e, op ≠ some (.apply e)) (step : op ≠ some .step) :
    s.delivered op xs = [] := by
  unfold delivered live released
  split
  · exact absurd rfl (apply _)
  · split
    · exact absurd rfl step
    · exact absurd rfl step
    · rfl

theorem delivered_nil (op : Option Op) (idle : s.live op = []) : s.delivered op [] = s.applied op [] := by
  have dead (e : ButtonEvent) (h : op = some (.apply e)) : s.isLive = false := by
    rw [h, live] at idle
    split_ifs at idle with isLive
    exact Bool.eq_false_iff.mpr isLive
  rw [delivered, idle, released_nil, applied_nil op dead]
  rfl

theorem Steps.toldEvents_prefix {r : Except Panic Answer} (h : Steps s xs r s') (single : s.delivery = .discrete) :
    toldEvents xs <+: s.dueEvents := by
  rcases h.applied with ⟨q, broken⟩ | ⟨t, -, applied, -⟩
  · cases broken with
    | broken due => exact List.nil_prefix
    | cut due single q =>
      rw [dueEvents_eq due, toldEvents_append, toldEvents_forwarded]
      exact List.prefix_append_right_inj _ |>.mpr (List.prefix_append [_] _)
  · have told := (applied_discrete single _ xs).symm.trans applied
    exact told ▸ List.prefix_rfl

theorem Steps.delivered {r : Except Panic Answer} (h : Steps s xs r s') :
    s.delivered (some .step) xs = s.applied (some .step) xs := by
  unfold Session.delivered released
  cases hd : s.delivery with
  | packed =>
    unfold Session.applied
    rw [hd]
    rfl
  | discrete =>
    rw [applied_discrete hd]
    exact (List.prefix_iff_eq_take.mp (h.toldEvents_prefix hd)).symm

/-- **The events delivered are the events applied to the controller.** -/
theorem Performs.delivered {r : Except Panic Answer} (h : Performs s op xs r s') :
    s.delivered (some op) xs = s.applied (some op) xs := by
  by_cases quiet : op.isQuiet = true
  · rw [(h.applied_of_quiet quiet).1]
    cases op <;> first | rfl | cases quiet
  · cases h with
    | dropped e dead => exact delivered_nil _ (by rw [live, dead]; rfl)
    | applied live h =>
      rw [(h.controller live).1, Session.delivered, Session.live, if_pos live]
      rfl
    | stepIgnored => exact delivered_nil _ rfl
    | stepped _ h => exact h.delivered
    | recordingStarted => exact delivered_nil _ rfl
    | recordingStopped => exact delivered_nil _ rfl
    | played log => exact delivered_nil _ rfl
    | _ => exact absurd rfl quiet

/-- Before a step packed delivery tells the core the whole controller, and nothing but that. -/
theorem Steps.told_packed {r : Except Panic Answer} (h : Steps s xs r s') (packed : s.delivery = .packed) :
    EmulatorHost.inputs xs <+: [.updateKey (.state s'.controller), .step] := by
  have told {ys : List Exchange} {t : Session} (due : PlaysDue s ys (.ok ()) t) :
      ys = [] ∧ t.delivery = .packed := by
    cases due with
    | delivered due =>
      rw [due_eq due, packed]
      exact ⟨rfl, packed⟩
  cases h with
  | cut due =>
    cases due with
    | broken due => exact List.nil_prefix
    | cut due single q => cases packed.symm.trans single
  | unannounced due _ q =>
    rw [(told due).1]
    exact List.prefix_append [_] _
  | uncounted due full =>
    obtain ⟨none, packed⟩ := told due
    rw [none, announced, packed]
    exact List.prefix_append [_] _
  | taken due room o =>
    obtain ⟨none, packed⟩ := told due
    simp only [none, announced, packed]
    exact List.prefix_rfl

theorem Performs.told_packed {r : Except Panic Answer} (h : Performs s op xs r s')
    (packed : s.delivery = .packed) : inputs xs <+: [.updateKey (.state s'.controller), .step] := by
  by_cases quiet : op.isQuiet = true
  · rw [inputs_eq_nil (h.isInput_eq_false quiet)]
    exact List.nil_prefix
  · cases h with
    | dropped e dead => exact List.nil_prefix
    | applied live h =>
      cases h with
      | cut single q => cases packed.symm.trans single
      | _ =>
        rw [packed]
        exact List.nil_prefix
    | stepIgnored => exact List.nil_prefix
    | stepped _ h => exact h.told_packed packed
    | recordingStarted => exact List.nil_prefix
    | recordingStopped => exact List.nil_prefix
    | played log => exact List.nil_prefix
    | _ => exact absurd rfl quiet

end Session

/-! ## The last event of a button -/

/-- The last event of a button was a press, and there was one. -/
def LastPressed (es : List ButtonEvent) (x : Button) : Prop :=
  ∃ front back, es = front ++ .press x :: back ∧ ∀ e ∈ back, e.button ≠ x

namespace LastPressed

variable {es : List ButtonEvent} {e : ButtonEvent} {x : Button}

theorem not_nil : ¬ LastPressed [] x := by
  rintro ⟨front, back, split, -⟩
  exact List.append_ne_nil_of_right_ne_nil front (List.cons_ne_nil _ back) split.symm

theorem snoc_iff : LastPressed (es ++ [e]) x ↔ if e.button = x then e.edge = .press else LastPressed es x := by
  constructor
  · rintro ⟨front, back, split, others⟩
    rcases List.eq_nil_or_concat back with rfl | ⟨back, f, rfl⟩
    · obtain ⟨-, same⟩ := List.append_inj' split rfl
      cases same
      exact (if_pos rfl).mpr rfl
    · rw [List.concat_eq_append, ← List.cons_append, ← List.append_assoc] at split
      obtain ⟨rfl, same⟩ := List.append_inj' split rfl
      cases same
      rw [List.concat_eq_append] at others
      rw [if_neg (others e (List.mem_append_right _ List.mem_cons_self))]
      exact ⟨front, back, rfl, fun f member => others f (List.mem_append_left _ member)⟩
  · intro last
    split_ifs at last with same
    · obtain ⟨button, edge⟩ := e
      cases same
      cases last
      exact ⟨es, [], rfl, fun _ member => absurd member List.not_mem_nil⟩
    · obtain ⟨front, back, rfl, others⟩ := last
      refine ⟨front, back ++ [e], by rw [List.append_assoc, List.cons_append], fun f member => ?_⟩
      rcases List.mem_append.mp member with before | this
      · exact others f before
      · rw [List.mem_singleton.mp this]
        exact same

end LastPressed

namespace ControllerState

variable (s : ControllerState) (es : List ButtonEvent) (x : Button)

theorem isPressed_applyAll_of_ne {es : List ButtonEvent} {x : Button} (others : ∀ e ∈ es, e.button ≠ x) :
    (s.applyAll es).isPressed x = s.isPressed x := by
  induction es generalizing s with
  | nil => rfl
  | cons e es ih =>
    obtain ⟨this, rest⟩ := List.forall_mem_cons.mp others
    rw [applyAll_cons, ih _ rest, isPressed_apply, if_neg this]

/-- **A controller shows the last event of every button.** -/
theorem isPressed_applyAll : (empty.applyAll es).isPressed x = true ↔ LastPressed es x := by
  induction es using List.reverseRecOn with
  | nil => simp [LastPressed.not_nil]
  | append_singleton es e ih =>
    rw [applyAll_append, applyAll_cons, applyAll_nil, isPressed_apply, LastPressed.snoc_iff]
    split_ifs
    · exact decide_eq_true_iff
    · exact ih

end ControllerState

/-! ## Whole runs -/

/-- An entry as its tick and its event. -/
def InputEntry.stamp (e : InputEntry) : Nat × ButtonEvent := (e.tick.toNat, e.event)

namespace Rig

variable {σ : Type} (core : Core σ)

/-- The events that a run delivers, the first one first. -/
def delivered : List (RigOp σ) → Rig σ → List ButtonEvent
  | [], _ => []
  | op :: ops, r =>
    r.machine.session.delivered op.op? (r.calls core [op]) ++ delivered ops ((op.act core).after r)

/-- The events that the operations of a run have part in, as `part` says, each with the number of steps that
the core was called for before, from `k` on. -/
def stamped (part : Session → Option Op → List Exchange → List ButtonEvent) :
    List (RigOp σ) → Nat → Rig σ → List (Nat × ButtonEvent)
  | [], _, _ => []
  | op :: ops, k, r =>
    (part r.machine.session op.op? (r.calls core [op])).map (k, ·) ++
      stamped part ops (k + (r.calls core [op]).countP Exchange.isStep) ((op.act core).after r)

variable {op : RigOp σ} {s s' : Session} {xs : List Exchange}

theorem Performs.delivered (h : Performs s op xs s') : s.delivered op.op? xs = s.applied op.op? xs := by
  cases h with
  | asked h => exact h.delivered
  | ticked clock h => exact h.delivered
  | waited => exact Session.delivered_nil _ rfl
  | refreshed => exact Session.delivered_nil none rfl
  | stopped => exact Session.delivered_nil none rfl

theorem Performs.told_packed (h : Performs s op xs s') (packed : s.delivery = .packed) :
    inputs xs <+: [.updateKey (.state s'.controller), .step] := by
  cases h with
  | asked h => exact h.told_packed packed
  | ticked clock h => exact h.told_packed packed
  | waited => exact List.nil_prefix
  | refreshed => exact List.nil_prefix
  | stopped => exact List.nil_prefix

/-- **Exactly the events delivered are applied to the controller.** -/
theorem delivered_eq_applied (ops : List (RigOp σ)) (r : Rig σ) : r.delivered core ops = r.applied core ops := by
  induction ops generalizing r with
  | nil => rfl
  | cons op ops ih => rw [delivered, applied, (op.performs core r).delivered, ih]

theorem controller_after (op : RigOp σ) (r : Rig σ) : ((op.act core).after r).machine.session.controller =
    r.machine.session.controller.applyAll (r.machine.session.delivered op.op? (r.calls core [op])) := by
  rw [(op.performs core r).delivered]
  exact (op.performs core r).controller

theorem isPressed_run (d : Delivery) (w : σ) (s : Scheduler) (ops : List (RigOp σ)) (x : Button) :
    let start : Rig σ := ⟨.fresh core d w, s⟩
    (start.run core ops).machine.session.controller.isPressed x = true ↔
      LastPressed (start.delivered core ops) x := by
  intro start
  rw [run_controller, delivered_eq_applied]
  exact ControllerState.isPressed_applyAll _ x

/-- **The last event of a button wins.** At every moment of a run from a fresh session, whatever the core
does, the controller holds a button exactly if an event of it has been delivered and the last one was a press.
An operation leaves every button alone of which it delivers no event; and but for live input and steps it
leaves the whole controller alone. What packed delivery tells the core about input, it tells it before a
step, and it is the controller with all that was delivered up to then and in this very step. -/
theorem run_lastPressed (d : Delivery) (w : σ) (s : Scheduler) (ops : List (RigOp σ)) :
    let start : Rig σ := ⟨.fresh core d w, s⟩
    let now := start.run core ops
    (∀ x, now.machine.session.controller.isPressed x = true ↔ LastPressed (start.delivered core ops) x) ∧
    ∀ op, let later := (op.act core).after now
      (∀ x, (∀ e ∈ now.machine.session.delivered op.op? (now.calls core [op]), e.button ≠ x) →
        later.machine.session.controller.isPressed x = now.machine.session.controller.isPressed x) ∧
      ((∀ e, op.op? ≠ some (.apply e)) → op.op? ≠ some .step →
        later.machine.session.controller = now.machine.session.controller) ∧
      (d = .packed → ∃ c : ControllerState, inputs (now.calls core [op]) <+: [.updateKey (.state c), .step] ∧
        ∀ x, c.isPressed x = true ↔ LastPressed (start.delivered core (ops ++ [op])) x) := by
  intro start now
  refine ⟨isPressed_run core d w s ops, fun op =>
    ⟨fun x others => ?_, fun apply step => ?_, fun packed => ?_⟩⟩
  · rw [controller_after]
    exact ControllerState.isPressed_applyAll_of_ne _ others
  · rw [controller_after, Session.delivered_of_ne apply step]
    rfl
  · have delivery : now.machine.session.delivery = d :=
      (run_keeps core ops start (.fresh d core.base)).delivery
    refine ⟨_, (op.performs core now).told_packed (delivery.trans packed), fun x => ?_⟩
    have later : start.run core (ops ++ [op]) = (op.act core).after now := run_append core ops [op] start
    rw [← later]
    exact isPressed_run core d w s (ops ++ [op]) x

/-- Live input, and a step of a log of three entries. -/
def openingMoves : List (RigOp (List (Option Fault))) :=
  [.session (.loadRom .empty), .session (.apply (.press .start)),
    .session (.play ⟨[⟨0, .press .a⟩, ⟨0, .press .b⟩, ⟨1, .release .a⟩]⟩), .session .step, .session .reset]

theorem run_lastPressed_openingMoves :
    let start : Rig (List (Option Fault)) :=
      ⟨.fresh .faulty .packed [none, none, none, some (.panic .other)], .fresh default⟩
    let now := start.run .faulty openingMoves
    let later := ((RigOp.session .step).act .faulty).after now
    start.delivered .faulty openingMoves = [.press .start, .press .a, .press .b] ∧
      (now.machine.session.controller.isPressed .a = true ↔
        LastPressed (start.delivered .faulty openingMoves) .a) ∧
      later.machine.session.controller.isPressed .b = now.machine.session.controller.isPressed .b ∧
      ∃ c : ControllerState, inputs (now.calls .faulty [.session .step]) = [.updateKey (.state ⟨10⟩), .step] ∧
        inputs (now.calls .faulty [.session .step]) <+: [.updateKey (.state c), .step] ∧
        ∀ x, c.isPressed x = true ↔
          LastPressed (start.delivered .faulty (openingMoves ++ [.session .step])) x := by
  obtain ⟨shows, moves⟩ := run_lastPressed .faulty .packed [none, none, none, some (.panic .other)]
    (.fresh default) openingMoves
  obtain ⟨alone, -, told⟩ := moves (.session .step)
  obtain ⟨c, tells, all⟩ := told rfl
  dsimp only
  exact ⟨by decide, shows .a, alone .b (by decide), c, by decide, tells, all⟩

/-- Discrete delivery stops at the entry on which the core panics. The session then takes live input. -/
example :
    let start : Rig (List (Option Fault)) :=
      ⟨.fresh .faulty .discrete [none, none, none, none, some (.panic .other)], .fresh default⟩
    start.delivered .faulty (openingMoves ++ [.session .step, .session (.apply (.release .start))]) =
      [.press .start, .press .a, .press .b, .release .start] := by decide

end Rig

end EmulatorHost
