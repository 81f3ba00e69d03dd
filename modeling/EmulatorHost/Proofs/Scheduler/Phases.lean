import EmulatorHost.Proofs.Scheduler.Effect
import EmulatorHost.Proofs.Scheduler.Transcript
import EmulatorHost.Proofs.Session.Phases

/-!
# Phases and events of a run

* `Rig.drained`: the events a host has collected; `Rig.blocks`: the events its operations are to leave.
* **`Rig.run_phases`**: after every operation the session is idle, running or paused as its calls on the
  core say, and the events collected and still waiting are the blocks of the operations, in order.
-/

namespace EmulatorHost

variable {σ : Type}

namespace RigOp

/-- The events that an operation leaves when it begins in the phase `p` and makes the calls `xs`. -/
def block (p : Phase) (xs : List Exchange) : RigOp σ → List SessionEvent
  | session op => op.block p xs
  | _ => []

/-- The events that an operation hands to the host. -/
def drained : RigOp σ → Except Panic Reply → List SessionEvent
  | session op, .ok (.answered answer) => op.drained (.ok answer)
  | _, _ => []

end RigOp

namespace Rig

/-- The events that a host has collected in a run. -/
def drained (core : Core σ) (ops : List (RigOp σ)) (r : Rig σ) : List SessionEvent :=
  (transcript core ops r).flatMap fun (op, reply) => op.drained reply

/-- The events that the operations of a run are to leave, in order. -/
def blocks (core : Core σ) : List (RigOp σ) → Rig σ → List SessionEvent
  | [], _ => []
  | op :: ops, r =>
    op.block r.machine.session.phase (r.calls core [op]) ++ blocks core ops ((op.act core).after r)

end Rig

/-! ## One operation -/

section Step

variable (core : Core σ) (r : Rig σ)

theorem RigOp.session_performs (op : Op) :
    r.machine.session.Performs op (r.calls core [.session op]) ((op.act core).answer r.machine)
      (((RigOp.session op).act core).after r).machine.session := by
  have calls : r.calls core [.session op] = r.machine.calls core [op] := by
    change (((RigOp.session op).act core.traced).after r.traced).machine.world.2 = _
    rw [RigOp.act, Act.after_map, Rig.onMachine, Act.after_within]
    rfl
  rw [calls, RigOp.act, Act.after_map, Rig.onMachine, Act.after_within]
  exact op.performs core r.machine

theorem RigOp.drained_session (op : Op) :
    (.session op : RigOp σ).drained (((RigOp.session op).reply core).answer r) =
      op.drained ((op.act core).answer r.machine) := by
  rw [RigOp.reply, Act.answer_map, Rig.onMachine, Act.answer_within]
  cases (op.act core).answer r.machine with
  | ok answer => rfl
  | error p => cases op <;> rfl

/-- **What an operation of a host does to the phase and the events.** -/
theorem RigOp.phases (op : RigOp σ) (settled : r.machine.session.phase ≠ .romLoaded) :
    let s := r.machine.session
    let t := ((op.act core).after r).machine.session
    let block := op.block s.phase (r.calls core [op])
    Session.Moves s.phase (r.calls core [op]) t.phase ∧ s.phase.Leads block t.phase ∧
      op.drained ((op.reply core).answer r) ++ t.events = s.events ++ block := by
  have performs := op.performs core r
  cases op with
  | session op =>
    rw [RigOp.drained_session]
    exact (RigOp.session_performs core r op).phases settled
  | tick clock =>
    generalize r.calls core [.tick clock] = xs at *
    generalize (((RigOp.tick clock).act core).after r).machine.session = t at *
    cases performs with
    | ticked _ h => exact h.phases settled
    | waited => exact ⟨.stays nofun, rfl, (List.append_nil _).symm⟩
  | refresh renderer =>
    generalize r.calls core [.refresh renderer] = xs at *
    generalize (((RigOp.refresh renderer).act core).after r).machine.session = t at *
    cases performs
    exact ⟨.stays nofun, rfl, (List.append_nil _).symm⟩
  | stop =>
    generalize r.calls core [.stop] = xs at *
    generalize (((RigOp.stop).act core).after r).machine.session = t at *
    cases performs
    exact ⟨.stays nofun, rfl, (List.append_nil _).symm⟩

end Step

/-! ## Runs -/

namespace Rig

variable (core : Core σ)

theorem drained_cons (op : RigOp σ) (ops : List (RigOp σ)) (r : Rig σ) :
    drained core (op :: ops) r =
      op.drained ((op.reply core).answer r) ++ drained core ops ((op.act core).after r) := rfl

theorem run_history {xs : List Exchange} {es : List SessionEvent} (ops : List (RigOp σ)) (r : Rig σ)
    (h : PhaseHistory xs es r.machine.session.phase) :
    PhaseHistory (xs ++ r.calls core ops) (es ++ blocks core ops r)
        (r.run core ops).machine.session.phase ∧
      drained core ops r ++ (r.run core ops).machine.session.events =
        r.machine.session.events ++ blocks core ops r := by
  induction ops generalizing r xs es with
  | nil => exact ⟨by simpa [blocks] using h, (List.append_nil _).symm⟩
  | cons op ops ih =>
    obtain ⟨moves, leads, now⟩ := op.phases core r h.settled
    obtain ⟨history, later⟩ := ih _ (h.moves moves leads)
    constructor
    · rw [calls_cons, blocks, ← List.append_assoc, ← List.append_assoc]
      exact history
    · calc drained core (op :: ops) r ++ (r.run core (op :: ops)).machine.session.events
        _ = op.drained ((op.reply core).answer r) ++
              (((op.act core).after r).machine.session.events ++
                blocks core ops ((op.act core).after r)) := by
          rw [drained_cons, run_cons, List.append_assoc, later]
        _ = r.machine.session.events ++ blocks core (op :: ops) r := by
          rw [← List.append_assoc, now, blocks, List.append_assoc]

theorem run_paused (ops : List (RigOp σ)) (r : Rig σ) (paused : r.machine.session.phase = .paused)
    (none : ∀ rom, .load rom (.ok true) ∉ r.calls core ops) :
    (r.run core ops).machine.session.phase = .paused := by
  induction ops generalizing r with
  | nil => exact paused
  | cons op ops ih =>
    rw [calls_cons] at none
    obtain ⟨moves, -⟩ := op.phases core r (by simp [paused])
    rw [paused] at moves
    have still := moves.paused fun rom h => none rom (List.mem_append_left _ h)
    exact ih _ still fun rom h => none rom (List.mem_append_right _ h)

/-- **Phases and events of a run.** Whatever a host does and wherever the core panics: the phase goes with
the calls on the core, the events collected and still waiting are the blocks of the operations in order,
and once paused the session stays so until an image is accepted. And the block of an operation may be read off
its calls: they say the same as its answer, and a load of an image calls the core once to load it. -/
theorem run_phases (d : Delivery) (w : σ) (s : Scheduler) (ops : List (RigOp σ)) :
    let start : Rig σ := ⟨.fresh core d w, s⟩
    let now := run core ops start
    PhaseHistory (calls core ops start) (drained core ops start ++ now.machine.session.events)
        now.machine.session.phase ∧
      drained core ops start ++ now.machine.session.events = blocks core ops start ∧
      (∀ more, now.machine.session.phase = .paused →
        (run core more now).machine.session.phase ≠ .paused →
        ∃ rom, .load rom (.ok true) ∈ calls core more now) ∧
      ∀ op : Op, op.Accords now.machine.session.phase (calls core [.session op] now)
        ((op.act core).answer now.machine) := by
  intro start now
  obtain ⟨history, events⟩ := run_history core ops start .fresh
  rw [List.nil_append] at history
  have events : drained core ops start ++ now.machine.session.events = blocks core ops start := events
  refine ⟨by rw [events]; exact history, events, fun more paused left => ?_, fun op => ?_⟩
  · by_contra none
    exact left (run_paused core more now paused (not_exists.mp none))
  · exact (RigOp.session_performs core now op).accords

end Rig

end EmulatorHost
