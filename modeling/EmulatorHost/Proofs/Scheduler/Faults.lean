import EmulatorHost.Proofs.Scheduler.Effect
import EmulatorHost.Proofs.Scheduler.Pacing
import EmulatorHost.Proofs.Scheduler.Refresh
import EmulatorHost.Proofs.Scheduler.Transcript
import EmulatorHost.Proofs.Session.Phases

/-!
# Faults of the core and of the renderer

* `Scheduler.Accounts`: a callback counts the fault it reports, and reports no work together with one.
* **`Rig.run_contained`**: in a run every callback answers, and the faults counted are the ones reported.
* `Rig.readings`: when the ticks of a run find the session running.
* `Scheduler.Rearmed`: a scheduler that waits for an interval to pass; **`Rig.run_rearmed`**.
* **`Scheduler.tick_faulty`**: a tick with a fault leaves the session running and the scheduler waiting so.
-/

namespace EmulatorHost

variable {σ : Type}

/-! ## Reports -/

namespace Reply

/-- The fault that a callback reports. -/
def fault : Reply → Option String
  | ticked report => report.fault
  | refreshed report => report.fault
  | answered _ => none
  | stopped => none

/-- Whether a callback reports a step of the core, or a picture shown. -/
def worked : Reply → Bool
  | ticked report => report.stepped
  | refreshed report => report.painted
  | answered _ => false
  | stopped => false

/-- Whether an operation answered, and reports a fault. -/
def isFaulty : Except Panic Reply → Bool
  | .ok reply => reply.fault.isSome
  | .error _ => false

end Reply

namespace RigOp

/-- Whether an operation is a callback of the scheduler. -/
def isCallback : RigOp σ → Bool
  | tick _ => true
  | refresh _ => true
  | session _ => false
  | stop => false

/-- The clock of a tick always tells the time. -/
def Tells : RigOp σ → Prop
  | tick clock => ∀ w, ∃ now v, clock.now w = .ok now v
  | session _ => True
  | refresh _ => True
  | stop => True

end RigOp

theorem Rig.faulted_faults (what : String) (f : Fault) (r : Rig σ) :
    (r.faulted what f).scheduler.faults = r.scheduler.faults + 1 := rfl

namespace Scheduler

/-- From one rig to another the fault that a callback reports was counted. It reports no work with it. -/
structure Accounts (worked : Bool) (fault : Option String) (r q : Rig σ) : Prop where
  counted : q.scheduler.faults = r.scheduler.faults + fault.isSome.toNat
  single : worked = true → fault = none

section Callbacks

variable (core : Core σ) (clock : Clock σ) {r q : Rig σ} {report : TickReport}

theorem tick_idle (stopped : r.scheduler.stopped = true) :
    tick core clock r = .ok ⟨false, none, none⟩ r := by
  rw [tick_eq, tickBy_idle _ _ stopped]

/-- What a tick did that answers. -/
theorem tick_ok (h : tick core clock r = .ok report q) :
    (r.scheduler.stopped = true ∧ report = ⟨false, none, none⟩ ∧ q = r) ∨
      r.scheduler.stopped = false ∧ ∃ now v delay, clock.now r.machine.world = .ok now v ∧
        report = .of ((r.inWorld v).outcome (Session.step core) now) delay ∧
        q = ((r.inWorld v).paced (Session.step core) now).inWorld
          (clock.now.after ((r.inWorld v).paced (Session.step core) now).machine.world) := by
  cases awake : r.scheduler.stopped with
  | true =>
    rw [tick_idle core clock awake] at h
    cases h
    exact .inl ⟨rfl, rfl, rfl⟩
  | false =>
    rw [tick_eq, tickBy_eq _ _ awake] at h
    cases read : clock.now r.machine.world with
    | error p v =>
      rw [read] at h
      cases h
    | ok now v =>
      rw [read] at h
      dsimp only at h
      cases again : clock.now ((r.inWorld v).paced (Session.step core) now).machine.world with
      | error p u =>
        rw [again] at h
        cases h
      | ok later u =>
        rw [again] at h
        cases h
        refine .inr ⟨rfl, now, v, _, rfl, rfl, ?_⟩
        rw [Act.after_of_ok again]

theorem paced_accounts (step : Act (Machine σ) (Except Failure Bool)) (now delay : Duration) (r : Rig σ) :
    Accounts (TickReport.of (r.outcome step now) delay).stepped
      (TickReport.of (r.outcome step now) delay).fault r (r.paced step now) := by
  unfold Rig.outcome Rig.paced
  split_ifs
  · unfold Rig.attempted
    cases Act.caught (step.answer r.machine) with
    | ok stepped => exact ⟨rfl, fun _ => rfl⟩
    | error f => exact ⟨rfl, nofun⟩
  · exact ⟨rfl, fun _ => rfl⟩

theorem tick_accounts (h : tick core clock r = .ok report q) :
    Accounts report.stepped report.fault r q := by
  rcases tick_ok core clock h with ⟨-, rfl, rfl⟩ | ⟨-, now, v, delay, -, rfl, rfl⟩
  · exact ⟨rfl, fun _ => rfl⟩
  · obtain ⟨counted, single⟩ := paced_accounts (Session.step core) now delay (r.inWorld v)
    exact ⟨counted, single⟩

theorem refresh_accounts (renderer : Renderer σ) (r : Rig σ) :
    ∃ report q, refresh core renderer r = .ok report q ∧ Accounts report.painted report.fault r q := by
  rcases r.idle_or_active with idle | ⟨awake, running⟩
  · exact ⟨_, _, refresh_idle core renderer idle, rfl, fun _ => rfl⟩
  · rw [refresh_eq core renderer awake running]
    cases r.shot core with
    | error f => exact ⟨_, _, rfl, Rig.faulted_faults _ _ _, nofun⟩
    | ok picture =>
      dsimp only
      cases Act.caught _ with
      | error f => exact ⟨_, _, rfl, Rig.faulted_faults _ _ _, nofun⟩
      | ok _ => exact ⟨_, _, rfl, rfl, fun _ => rfl⟩

end Callbacks

end Scheduler

/-! ## Runs -/

namespace RigOp

variable (core : Core σ) (op : RigOp σ) (r : Rig σ)

theorem answers (callback : op.isCallback = true) (tells : op.Tells) :
    ∃ reply, (op.reply core).answer r = .ok reply := by
  cases op with
  | session op => cases callback
  | stop => cases callback
  | tick clock =>
    cases awake : r.scheduler.stopped with
    | true =>
      refine ⟨.ticked ⟨false, none, none⟩, ?_⟩
      rw [reply, Act.answer_map, Act.answer_of_ok (Scheduler.tick_idle core clock awake)]
      rfl
    | false =>
      obtain ⟨report, -, answer, -⟩ := Rig.tick_answers core awake tells
      refine ⟨.ticked report, ?_⟩
      rw [reply, Act.answer_map, answer]
      rfl
  | refresh renderer =>
    obtain ⟨report, q, shown, -⟩ := Scheduler.refresh_accounts core renderer r
    refine ⟨.refreshed report, ?_⟩
    rw [reply, Act.answer_map, Act.answer_of_ok shown]
    rfl

/-- **What an operation reports is what the scheduler counts.** -/
theorem accounts {a : Reply} (h : (op.reply core).answer r = .ok a) :
    Scheduler.Accounts a.worked a.fault r ((op.act core).after r) := by
  rw [← after_reply]
  cases op with
  | session op =>
    rw [reply, Act.answer_map] at h
    rw [reply, Act.after_map, Rig.onMachine, Act.after_within]
    cases did : (Rig.onMachine (op.act core)).answer r with
    | error p =>
      rw [did] at h
      cases h
    | ok answer =>
      rw [did] at h
      cases h
      exact ⟨rfl, fun _ => rfl⟩
  | tick clock =>
    rw [reply, Act.answer_map] at h
    rw [reply, Act.after_map]
    cases did : Scheduler.tick core clock r with
    | error p q =>
      rw [Act.answer_of_error did] at h
      cases h
    | ok report q =>
      rw [Act.answer_of_ok did] at h
      cases h
      rw [Act.after_of_ok did]
      exact Scheduler.tick_accounts core clock did
  | refresh renderer =>
    obtain ⟨report, q, did, accounts⟩ := Scheduler.refresh_accounts core renderer r
    rw [reply, Act.answer_map, Act.answer_of_ok did] at h
    cases h
    rw [reply, Act.after_map, Act.after_of_ok did]
    exact accounts
  | stop =>
    cases h
    exact ⟨rfl, fun _ => rfl⟩

theorem faults_after (tells : op.Tells) :
    ((op.act core).after r).scheduler.faults =
      r.scheduler.faults + (Reply.isFaulty ((op.reply core).answer r)).toNat := by
  cases replied : (op.reply core).answer r with
  | ok a => exact (op.accounts core r replied).counted
  | error p =>
    cases callback : op.isCallback with
    | true =>
      obtain ⟨a, answered⟩ := op.answers core r callback tells
      cases answered.symm.trans replied
    | false =>
      cases op with
      | session op =>
        rw [act, Act.after_map, Rig.onMachine, Act.after_within]
        rfl
      | stop => rfl
      | tick clock => cases callback
      | refresh renderer => cases callback

end RigOp

namespace Rig

variable (core : Core σ)

/-- **A run contains the faults it meets.** Every callback answers, with work done or a fault but not both;
and the scheduler counts exactly the faults that are reported. -/
theorem run_contained (ops : List (RigOp σ)) (r : Rig σ) (tells : ∀ op ∈ ops, op.Tells) :
    (∀ op reply, (op, reply) ∈ r.transcript core ops → op.isCallback = true →
      ∃ a, reply = .ok a ∧ (a.worked = true → a.fault = none)) ∧
    (r.run core ops).scheduler.faults =
      r.scheduler.faults + (r.transcript core ops).countP fun entry => Reply.isFaulty entry.2 := by
  induction ops generalizing r with
  | nil => exact ⟨fun _ _ member => absurd member List.not_mem_nil, rfl⟩
  | cons op ops ih =>
    obtain ⟨this, rest⟩ := List.forall_mem_cons.mp tells
    obtain ⟨answer, counted⟩ := ih ((op.act core).after r) rest
    constructor
    · intro op' reply member callback
      rcases List.mem_cons.mp member with same | later
      · obtain ⟨rfl, rfl⟩ := Prod.mk.inj same
        obtain ⟨a, answered⟩ := op'.answers core r callback this
        exact ⟨a, answered, (op'.accounts core r answered).single⟩
      · exact answer op' reply later callback
    · have now := op.faults_after core r this
      have bit (b : Bool) : b.toNat = if b then 1 else 0 := by cases b <;> rfl
      rw [run_cons, counted, now, transcript, List.countP_cons, bit, Nat.add_assoc, Nat.add_comm (ite _ _ _)]

end Rig

/-! ## After a fault -/

/-- The first reading of a tick's clock, if the tick is to look at a session that runs. -/
def RigOp.readings (r : Rig σ) : RigOp σ → List Duration
  | tick clock =>
    if r.scheduler.stopped || !r.machine.session.isRunning then []
    else match clock.now r.machine.world with
      | .ok now _ => [now]
      | .error _ _ => []
  | session _ => []
  | refresh _ => []
  | stop => []

/-- The readings of the ticks of a run that find the session running, the first one first. -/
def Rig.readings (core : Core σ) : List (RigOp σ) → Rig σ → List Duration
  | [], _ => []
  | op :: ops, r => op.readings r ++ readings core ops ((op.act core).after r)

theorem RigOp.readings_tick {clock : Clock σ} {r : Rig σ} {now : Duration} :
    now ∈ (tick clock).readings r ↔ r.scheduler.stopped = false ∧ r.machine.session.isRunning = true ∧
      ∃ v, clock.now r.machine.world = .ok now v := by
  unfold readings
  cases read : clock.now r.machine.world <;> cases r.scheduler.stopped <;>
    cases r.machine.session.isRunning <;> simp [read, eq_comm]

namespace Scheduler

/-- A scheduler that steps again once an interval has passed since some time, and not before. Without an
interval it always does. -/
structure Rearmed (c : Cadence) (since : Duration) (s : Scheduler) : Prop where
  cadence : s.cadence = c
  lastStep : s.lastStep = some since ∨ c.interval.nanos = 0

namespace Rearmed

variable {c : Cadence} {since now : Duration} {s t : Scheduler}

theorem of_eq (h : Rearmed c since s) (cadence : t.cadence = s.cadence) (lastStep : t.lastStep = s.lastStep) :
    Rearmed c since t :=
  ⟨cadence.trans h.cadence, lastStep ▸ h.lastStep⟩

theorem isDue (h : Rearmed c since s) (late : since.nanos + c.interval.nanos ≤ now.nanos) :
    s.isDue now = true := by
  unfold Scheduler.isDue
  rw [h.cadence]
  rcases h.lastStep with last | always
  · have passed : c.interval ≤ now - since := by
      rw [Duration.le_def, Duration.sub_nanos]
      omega
    rw [last]
    exact decide_eq_true passed
  · cases s.lastStep with
    | none => rfl
    | some last =>
      refine decide_eq_true ?_
      rw [Duration.le_def, always]
      exact Nat.zero_le _

theorem eq_zero (h : Rearmed c since s) (early : now.nanos < since.nanos + c.interval.nanos)
    (due : s.isDue now = true) : c.interval.nanos = 0 := by
  rcases h.lastStep with last | always
  · unfold Scheduler.isDue at due
    rw [last, h.cadence] at due
    have passed : c.interval.nanos ≤ now.nanos - since.nanos := of_decide_eq_true due
    omega
  · exact always

end Rearmed

end Scheduler

/-- An operation leaves a scheduler waiting, unless it is a tick that comes late enough. -/
theorem RigOp.rearmed (core : Core σ) {c : Cadence} {since : Duration} {r : Rig σ} (op : RigOp σ)
    (h : r.scheduler.Rearmed c since)
    (early : ∀ now ∈ op.readings r, now.nanos < since.nanos + c.interval.nanos) :
    ((op.act core).after r).scheduler.Rearmed c since := by
  cases op with
  | session op =>
    rw [act, Act.after_map, Rig.onMachine, Act.after_within]
    exact h
  | tick clock =>
    rw [act, Act.after_map]
    cases awake : r.scheduler.stopped with
    | true =>
      rw [Act.after_of_ok (Scheduler.tick_idle core clock awake)]
      exact h
    | false =>
      rw [Scheduler.tick_eq]
      cases read : clock.now r.machine.world with
      | error p v =>
        rw [Act.after_of_error (Scheduler.tickBy_of_panic _ clock awake read)]
        exact h
      | ok now v =>
        rw [Scheduler.after_tickBy _ _ awake read]
        dsimp only [Rig.inWorld_scheduler]
        unfold Rig.paced
        split_ifs with attempts
        · -- a step this early is due only without an interval
          obtain ⟨running, due⟩ := Bool.and_eq_true_iff.mp attempts
          have this : now ∈ (RigOp.tick clock).readings r := readings_tick.mpr ⟨awake, running, v, read⟩
          have always := h.eq_zero (early now this) due
          exact ⟨by simpa using h.cadence, .inr always⟩
        · exact h
  | refresh renderer =>
    have kept := Rig.refresh_keeps_pace core renderer
    rw [act, Act.after_map]
    exact h.of_eq (congrArg Emulation.cadence (kept r)) (congrArg Emulation.lastStep (kept r))
  | stop => exact h.of_eq rfl rfl

namespace Rig

variable (core : Core σ) {c : Cadence} {since : Duration}

theorem rearmed_run (ops : List (RigOp σ)) (r : Rig σ) (h : r.scheduler.Rearmed c since)
    (early : ∀ now ∈ r.readings core ops, now.nanos < since.nanos + c.interval.nanos) :
    (r.run core ops).scheduler.Rearmed c since := by
  induction ops generalizing r with
  | nil => exact h
  | cons op ops ih =>
    obtain ⟨this, rest⟩ := List.forall_mem_append.mp early
    exact ih _ (op.rearmed core h this) rest

/-- **Once an interval has passed, the first tick that finds the session running steps it.** -/
theorem run_rearmed (ops : List (RigOp σ)) (r : Rig σ) (h : r.scheduler.Rearmed c since)
    (early : ∀ now ∈ r.readings core ops, now.nanos < since.nanos + c.interval.nanos) {clock : Clock σ}
    {now : Duration} (reads : now ∈ (RigOp.tick clock).readings (r.run core ops))
    (late : since.nanos + c.interval.nanos ≤ now.nanos) :
    (r.run core ops).stepCalls core clock = 1 := by
  obtain ⟨awake, running, v, read⟩ := RigOp.readings_tick.mp reads
  have due := (rearmed_run core ops r h early).isDue late
  rw [stepCalls_eq core clock awake read, attempts, running, due]
  rfl

end Rig

theorem Session.step_phase (core : Core σ) :
    Act.Keeps (fun m : Machine σ => m.session.phase) (Session.step core) := by
  intro m
  have performs := Op.performs core .step m
  have left : ((Op.step).act core).after m = (Session.step core).after m := by
    rw [Op.act, Act.after_map]
  rw [left] at performs
  exact performs.step_inputs.1

/-- **A tick that reports a fault leaves the session running**, and the next step due an interval later. -/
theorem Scheduler.tick_faulty (core : Core σ) (clock : Clock σ) {r q : Rig σ} {report : TickReport}
    (h : tick core clock r = .ok report q) (faulty : report.fault.isSome = true) :
    q.machine.session.isRunning = true ∧ ∃ now ∈ (RigOp.tick clock).readings r,
      q.scheduler.Rearmed r.scheduler.cadence now := by
  rcases tick_ok core clock h with ⟨-, rfl, rfl⟩ | ⟨awake, now, v, delay, read, rfl, rfl⟩
  · cases faulty
  · cases attempts : (r.inWorld v).attempts now with
    | false =>
      rw [Rig.outcome, attempts] at faulty
      cases faulty
    | true =>
      have running : r.machine.session.isRunning = true := (Bool.and_eq_true_iff.mp attempts).1
      have paced : (r.inWorld v).paced (Session.step core) now =
          (r.inWorld v).attempted (Session.step core) now := if_pos attempts
      have phase : ((Session.step core).after (r.inWorld v).machine).session.phase =
          r.machine.session.phase := Session.step_phase core (r.inWorld v).machine
      rw [paced]
      refine ⟨?_, now, RigOp.readings_tick.mpr ⟨awake, running, v, read⟩, ?_⟩
      · rw [Rig.inWorld_session, Rig.attempted_session, Session.isRunning, phase]
        exact running
      · exact ⟨by simp, .inl (by simp)⟩

end EmulatorHost
