import EmulatorHost.Host.Scheduler
import EmulatorHost.Proofs.Act

/-!
# The callbacks of a scheduler

* `Scheduler.tickBy`: a tick, for any way to take a step; `Scheduler.tick_eq` is the case of the session.
* `Rig.paced`, `Rig.outcome`: what a tick does between its two readings of the clock, and what comes of it.
* **`Scheduler.tickBy_eq`**: a tick reads the clock, takes its step, and reads the clock again.
* `Rig.emulation`: all that steps depend on; **`Rig.refresh_keeps`**: a refresh leaves it alone.
-/

namespace EmulatorHost

variable {σ τ : Type}

/-! ## Ticks with any step -/

namespace Scheduler

/-- An attempt to take a step, for any way to take one. -/
def attemptBy (step : Act (Machine σ) (Except Failure Bool)) (now : Duration) :
    Act (Rig σ) (Except String Bool) := do
  modify (·.mapScheduler fun s => { s with lastStep := some now })
  match ← (Rig.onMachine step).guarded with
  | .ok stepped => return .ok stepped
  | .error f => return .error (← fault "step" f)

/-- What a tick does after its step: it reads the clock again and says how long to wait. -/
def settle (clock : Clock σ) (running : Bool) (now : Duration) (outcome : Except String Bool) :
    Act (Rig σ) TickReport := do
  let s := (← get).scheduler
  let reference := if running then s.lastStep.getD now else now
  let elapsed := (← Rig.call clock.now) - reference
  let delay := s.cadence.interval - elapsed
  match outcome with
  | .ok stepped => return ⟨stepped, some delay, none⟩
  | .error message => return ⟨false, some delay, some message⟩

/-- A tick, for any way to take a step. -/
def tickBy (step : Act (Machine σ) (Except Failure Bool)) (clock : Clock σ) : Act (Rig σ) TickReport := do
  if (← get).scheduler.stopped then return ⟨false, none, none⟩
  let now ← Rig.call clock.now
  let r ← get
  let running := r.machine.session.isRunning
  let outcome ← if running && r.scheduler.isDue now then attemptBy step now else pure (.ok false)
  settle clock running now outcome

theorem tick_eq (core : Core σ) (clock : Clock σ) :
    tick core clock = tickBy (Session.step core) clock := rfl

end Scheduler

/-! ## What a tick does -/

namespace Rig

/-- The rig in another world. -/
def inWorld (v : σ) (r : Rig σ) : Rig σ := { r with machine := { r.machine with world := v } }

@[simp] theorem inWorld_session (v : σ) (r : Rig σ) :
    (r.inWorld v).machine.session = r.machine.session := rfl

@[simp] theorem inWorld_world (v : σ) (r : Rig σ) : (r.inWorld v).machine.world = v := rfl

@[simp] theorem inWorld_scheduler (v : σ) (r : Rig σ) : (r.inWorld v).scheduler = r.scheduler := rfl

theorem call_apply {α : Type} (x : Act σ α) (r : Rig σ) :
    Rig.call x r = match x r.machine.world with
      | .ok a v => .ok a (r.inWorld v)
      | .error p v => .error p (r.inWorld v) := by
  unfold Rig.call onMachine Session.call Act.within
  cases x r.machine.world <;> rfl

/-- The rig after a fault was counted and written down. -/
def faulted (what : String) (f : Fault) (r : Rig σ) : Rig σ :=
  (r.mapScheduler fun s => { s with faults := s.faults + 1 }).note .error
    (what ++ " fault #" ++ toString (r.scheduler.faults + 1) ++ ": " ++ f.message)

/-- The rig after an attempt to take a step. -/
def attempted (step : Act (Machine σ) (Except Failure Bool)) (now : Duration) (r : Rig σ) : Rig σ :=
  let q : Rig σ := ⟨step.after r.machine, { r.scheduler with lastStep := some now }⟩
  match Act.caught (step.answer r.machine) with
  | .ok _ => q
  | .error f => q.faulted "step" f

/-- Whether a tick at a time attempts a step. -/
def attempts (now : Duration) (r : Rig σ) : Bool :=
  r.machine.session.isRunning && r.scheduler.isDue now

/-- The rig after what a tick does between its two readings of the clock. -/
def paced (step : Act (Machine σ) (Except Failure Bool)) (now : Duration) (r : Rig σ) : Rig σ :=
  if r.attempts now then r.attempted step now else r

/-- What comes of that. -/
def outcome (step : Act (Machine σ) (Except Failure Bool)) (now : Duration) (r : Rig σ) :
    Except String Bool :=
  if r.attempts now then (Act.caught (step.answer r.machine)).mapError Fault.message else .ok false

/-- When the wait for the next tick began. -/
def reference (now : Duration) (r : Rig σ) : Duration :=
  if r.machine.session.isRunning && !r.scheduler.isDue now then r.scheduler.lastStep.getD now else now

section Attempt

variable (step : Act (Machine σ) (Except Failure Bool)) (now : Duration) (r : Rig σ)

@[simp] theorem attempted_session :
    (r.attempted step now).machine.session = (step.after r.machine).session := by
  unfold attempted
  cases Act.caught (step.answer r.machine) <;> rfl

@[simp] theorem attempted_world :
    (r.attempted step now).machine.world = (step.after r.machine).world := by
  unfold attempted
  cases Act.caught (step.answer r.machine) <;> rfl

@[simp] theorem attempted_cadence : (r.attempted step now).scheduler.cadence = r.scheduler.cadence := by
  unfold attempted
  cases Act.caught (step.answer r.machine) <;> rfl

@[simp] theorem attempted_stopped : (r.attempted step now).scheduler.stopped = r.scheduler.stopped := by
  unfold attempted
  cases Act.caught (step.answer r.machine) <;> rfl

@[simp] theorem attempted_lastStep : (r.attempted step now).scheduler.lastStep = some now := by
  unfold attempted
  cases Act.caught (step.answer r.machine) <;> rfl

theorem attemptBy_apply :
    Scheduler.attemptBy step now r =
      .ok ((Act.caught (step.answer r.machine)).mapError Fault.message) (r.attempted step now) := by
  unfold Scheduler.attemptBy attempted
  rw [Act.bind_apply, Act.modify_apply]
  dsimp only
  rw [Act.bind_apply, Act.guarded_apply, onMachine, Act.answer_within, Act.after_within]
  dsimp only [mapScheduler]
  cases Act.caught (step.answer r.machine) <;> rfl

end Attempt

end Rig

/-- The report of a tick. -/
def TickReport.of (outcome : Except String Bool) (delay : Duration) : TickReport :=
  match outcome with
  | .ok stepped => ⟨stepped, some delay, none⟩
  | .error message => ⟨false, some delay, some message⟩

@[simp] theorem TickReport.of_delay (outcome : Except String Bool) (delay : Duration) :
    (TickReport.of outcome delay).delay = some delay := by
  cases outcome <;> rfl

namespace Scheduler

variable (step : Act (Machine σ) (Except Failure Bool)) (clock : Clock σ) {r : Rig σ}

theorem settle_apply (running : Bool) (now : Duration) (outcome : Except String Bool) (q : Rig σ) :
    settle clock running now outcome q = match clock.now q.machine.world with
      | .error p v => .error p (q.inWorld v)
      | .ok later v =>
        let reference := if running then q.scheduler.lastStep.getD now else now
        .ok (.of outcome (q.scheduler.cadence.interval - (later - reference))) (q.inWorld v) := by
  change (Rig.call clock.now >>= _ : Act (Rig σ) TickReport) q = _
  rw [Act.bind_apply, Rig.call_apply]
  cases clock.now q.machine.world with
  | error p v => rfl
  | ok later v => cases outcome <;> rfl

theorem tickBy_idle (stopped : r.scheduler.stopped = true) :
    tickBy step clock r = .ok ⟨false, none, none⟩ r := by
  unfold tickBy
  rw [Act.bind_apply]
  change (if r.scheduler.stopped = true then _ else _ : Act (Rig σ) TickReport) r = _
  rw [stopped]
  rfl

/-- **A tick reads the clock, takes its step, and reads the clock again.** -/
theorem tickBy_eq (awake : r.scheduler.stopped = false) :
    tickBy step clock r = match clock.now r.machine.world with
      | .error p v => .error p (r.inWorld v)
      | .ok now v =>
        let r := r.inWorld v
        let q := r.paced step now
        match clock.now q.machine.world with
        | .error p v => .error p (q.inWorld v)
        | .ok later v =>
          .ok (.of (r.outcome step now) (r.scheduler.cadence.interval - (later - r.reference now)))
            (q.inWorld v) := by
  unfold tickBy
  rw [Act.bind_apply]
  change (if r.scheduler.stopped = true then _ else _ : Act (Rig σ) TickReport) r = _
  rw [awake, if_neg nofun, Act.bind_apply, Rig.call_apply]
  cases clock.now r.machine.world with
  | error p v => rfl
  | ok now v =>
    dsimp only
    generalize r.inWorld v = r
    rw [Act.bind_apply]
    change (if r.attempts now = true then _ else _ : Act (Rig σ) TickReport) r = _
    unfold Rig.paced Rig.outcome
    by_cases attempts : r.attempts now = true
    · have running : r.machine.session.isRunning = true := (Bool.and_eq_true_iff.mp attempts).1
      have due : r.scheduler.isDue now = true := (Bool.and_eq_true_iff.mp attempts).2
      rw [if_pos attempts, if_pos attempts, if_pos attempts, Act.bind_apply, Rig.attemptBy_apply]
      simp only [settle_apply, Rig.reference, running, due, Rig.attempted_lastStep, Rig.attempted_cadence,
        Option.getD_some, Bool.not_true, Bool.and_false, if_true]
      rfl
    · have reference : (if r.machine.session.isRunning then r.scheduler.lastStep.getD now else now) =
          r.reference now := by
        unfold Rig.reference
        cases running : r.machine.session.isRunning with
        | false => rfl
        | true =>
          have notDue : r.scheduler.isDue now = false := by simpa [Rig.attempts, running] using attempts
          rw [notDue]
          rfl
      rw [if_neg attempts, if_neg attempts, if_neg attempts, ← reference]
      exact settle_apply clock _ now (.ok false) r

variable {now : Duration} {v : σ}

theorem tickBy_of_panic (awake : r.scheduler.stopped = false) {p : Panic}
    (read : clock.now r.machine.world = .error p v) : tickBy step clock r = .error p (r.inWorld v) := by
  rw [tickBy_eq step clock awake, read]

theorem after_tickBy (awake : r.scheduler.stopped = false) (read : clock.now r.machine.world = .ok now v) :
    let q := (r.inWorld v).paced step now
    (tickBy step clock).after r = q.inWorld (clock.now.after q.machine.world) := by
  intro q
  rw [Act.after, tickBy_eq step clock awake, read]
  dsimp only [q, Act.after]
  cases clock.now ((r.inWorld v).paced step now).machine.world <;> rfl

theorem answer_tickBy (awake : r.scheduler.stopped = false)
    (read : clock.now r.machine.world = .ok now v) {later : Duration}
    (again : clock.now.answer ((r.inWorld v).paced step now).machine.world = .ok later) :
    (tickBy step clock).answer r = .ok (.of ((r.inWorld v).outcome step now)
      (r.scheduler.cadence.interval - (later - (r.inWorld v).reference now))) := by
  rw [Act.answer, tickBy_eq step clock awake, read]
  dsimp only
  unfold Act.answer at again
  cases h : clock.now ((r.inWorld v).paced step now).machine.world with
  | ok k u =>
    rw [h] at again
    cases again
    rfl
  | error p u =>
    rw [h] at again
    cases again

end Scheduler

/-! ## What a refresh leaves alone -/

/-- All that steps depend on: the session, a part of the world, and what the scheduler paces them by. -/
structure Emulation (τ : Type) where
  session : Session
  world : τ
  cadence : Cadence
  lastStep : Option Duration
  stopped : Bool

/-- The emulation of a rig, with the part `f` of its world. -/
def Rig.emulation (f : σ → τ) (r : Rig σ) : Emulation τ :=
  ⟨r.machine.session, f r.machine.world, r.scheduler.cadence, r.scheduler.lastStep, r.scheduler.stopped⟩

namespace Rig

open Act Act.Keeps

variable {f : σ → τ}

theorem onMachine_keeps {α : Type} {x : Act (Machine σ) α}
    (h : Keeps (fun m => (m.session, f m.world)) x) : Keeps (emulation f) (onMachine x) := by
  intro r
  obtain ⟨session, world⟩ := Prod.mk.inj (h r.machine)
  rw [onMachine, after_within, emulation, emulation, session, world]

theorem sessionCall_keeps {α : Type} {x : Act σ α} (h : Keeps f x) :
    Keeps (fun m : Machine σ => (m.session, f m.world)) (Session.call x) := by
  intro m
  rw [Session.call, after_within]
  exact Prod.ext rfl (h m.world)

theorem call_keeps {α : Type} {x : Act σ α} (h : Keeps f x) : Keeps (emulation f) (Rig.call x) :=
  onMachine_keeps (sessionCall_keeps h)

theorem fault_keeps (what : String) (e : Fault) : Keeps (emulation f) (Scheduler.fault what e) :=
  fun _ => rfl

theorem display_keeps {core : Core σ} (memory : Keeps f core.memory) (out : ByteArray) :
    Keeps (fun m => (m.session, f m.world)) (Session.display core out) := by
  unfold Session.display
  refine of_get.andThen fun m => (sessionCall_keeps memory).andThen fun memory => ?_
  split
  · exact of_pure _
  · exact of_pure _
  · exact of_throw _

theorem present_keeps {core : Core σ} (memory : Keeps f core.memory) :
    Keeps (emulation f) (Scheduler.present core) := by
  unfold Scheduler.present
  refine of_get.andThen fun r => (onMachine_keeps (display_keeps memory _)).andThen fun o => ?_
  cases o with
  | ok picture => exact andThen (fun _ => rfl) fun _ => of_pure _
  | error e => exact of_pure _

/-- **A refresh leaves the emulation alone**, if the memory and the renderer leave their part of the world
alone. -/
theorem refresh_keeps {core : Core σ} {renderer : Renderer σ} (memory : Keeps f core.memory)
    (paint : ∀ picture width height, Keeps f (renderer.paint picture width height)) :
    Keeps (emulation f) (Scheduler.refresh core renderer) := by
  unfold Scheduler.refresh
  refine andThen of_get fun r => ?_
  split_ifs
  · exact of_pure _
  refine andThen (fun _ => rfl) fun _ => andThen (present_keeps memory).of_guarded fun o => ?_
  cases o with
  | error e => exact (fault_keeps "present" e).andThen fun _ => of_pure _
  | ok _ =>
    refine of_get.andThen fun r => (call_keeps (paint _ _ _)).of_guarded.andThen fun o => ?_
    cases o with
    | error e => exact (fault_keeps "paint" e).andThen fun _ => of_pure _
    | ok _ => exact of_pure _

theorem refresh_keeps_pace (core : Core σ) (renderer : Renderer σ) :
    Keeps (emulation fun _ => ()) (Scheduler.refresh core renderer) :=
  refresh_keeps (fun _ => rfl) fun _ _ _ _ => rfl

/-- **A refresh never panics.** -/
theorem refresh_returns (core : Core σ) (renderer : Renderer σ) (r : Rig σ) :
    Ends (Scheduler.refresh core renderer) r (fun _ _ => True) fun _ => False := by
  have faulted (what : String) (e : Fault) (r : Rig σ) : Ends (do
      let message ← Scheduler.fault what e
      pure (⟨false, some message⟩ : RefreshReport)) r (fun _ _ => True) fun _ => False := trivial
  unfold Scheduler.refresh
  refine Ends.get_andThen (Ends.of_ite (fun _ => trivial) fun _ => ?_)
  refine Ends.andThen (P := fun _ _ => True) trivial fun _ r _ => ?_
  refine Ends.andThen (P := fun _ _ => True) (Ends.of_guarded trivial) fun o r _ => ?_
  cases o with
  | error e => exact faulted "present" e r
  | ok _ =>
    refine Ends.get_andThen (Ends.andThen (P := fun _ _ => True) (Ends.of_guarded trivial) fun o r _ => ?_)
    cases o with
    | error e => exact faulted "paint" e r
    | ok _ => exact trivial

end Rig

end EmulatorHost
