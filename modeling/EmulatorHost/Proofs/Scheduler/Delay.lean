import EmulatorHost.Proofs.Scheduler.Sights

/-!
# Waiting as long as a tick says

A tick says how long to wait for the next one, from its last reading of the clock on.

* `Scheduler.tick_delay`: what the delay is counted from.
* `Rig.paced_isDue`: while the session runs, a step falls due when the wait is over, and not before.
* `Rig.lastStep_told`: the last step was attempted at a time that a clock told.
* **`Rig.delay_exact`**: in a run, the next tick steps the session exactly if the wait is over.
-/

namespace EmulatorHost

variable {σ : Type}

namespace Rig

section Paced

variable (step : Act (Machine σ) (Except Failure Bool)) (now : Duration) (r : Rig σ)

@[simp] theorem paced_cadence : (r.paced step now).scheduler.cadence = r.scheduler.cadence := by
  unfold paced
  split_ifs
  · exact attempted_cadence step now r
  · rfl

theorem paced_lastStep : (r.paced step now).scheduler.lastStep =
    if r.attempts now then some now else r.scheduler.lastStep := by
  unfold paced
  split_ifs
  · exact attempted_lastStep step now r
  · rfl

theorem paced_reference (running : r.machine.session.isRunning = true) :
    (r.paced step now).scheduler.lastStep = some (r.reference now) := by
  rw [paced_lastStep, attempts, reference, running, Bool.true_and, Bool.true_and]
  cases due : r.scheduler.isDue now with
  | true => rfl
  | false =>
    unfold Scheduler.isDue at due
    cases last : r.scheduler.lastStep with
    | none =>
      rw [last] at due
      cases due
    | some last => rfl

variable {step now r} {later n : Duration}

/-- **While the session runs, a step falls due when the wait is over, and not before.** -/
theorem paced_isDue (running : r.machine.session.isRunning = true)
    (past : ∀ last ∈ r.scheduler.lastStep, last ≤ now) (forward : now ≤ later) (next : later ≤ n) :
    (r.paced step now).scheduler.isDue n = true ↔
      later.nanos + (r.scheduler.cadence.interval - (later - r.reference now)).nanos ≤ n.nanos := by
  have began : r.reference now ≤ now := by
    have last := paced_reference step now r running
    rw [paced_lastStep] at last
    split_ifs at last
    · rw [← Option.some.inj last]
      exact Nat.le_refl _
    · exact past _ last
  unfold Scheduler.isDue
  rw [paced_reference step now r running, paced_cadence]
  dsimp only
  rw [decide_eq_true_iff]
  simp only [Duration.le_def, Duration.sub_nanos] at *
  omega

theorem paced_isDue_of_idle (idle : r.machine.session.isRunning = false)
    (past : ∀ last ∈ r.scheduler.lastStep, last ≤ now) (forward : now ≤ later)
    (passed : later.nanos + (r.scheduler.cadence.interval - (later - r.reference now)).nanos ≤ n.nanos) :
    (r.paced step now).scheduler.isDue n = true := by
  have began : r.reference now = now := by
    rw [reference, idle]
    rfl
  unfold Scheduler.isDue
  rw [paced_lastStep, attempts, idle, Bool.false_and, if_neg Bool.false_ne_true, paced_cadence]
  cases attempted : r.scheduler.lastStep with
  | none => rfl
  | some last =>
    have past : last ≤ now := past last attempted
    refine decide_eq_true ?_
    rw [began] at passed
    simp only [Duration.le_def, Duration.sub_nanos] at *
    omega

end Paced

end Rig

/-! ## The delay of a tick -/

namespace Scheduler

variable {core : Core σ} {clock : Clock σ} {r : Rig σ}

/-- **What a delay is counted from.** A tick that asks for one has read its clock twice. -/
theorem tick_delay {report : TickReport} {d : Duration}
    (answered : (tick core clock).answer r = .ok report) (delay : report.delay = some d) :
    ∃ now v later, r.scheduler.stopped = false ∧ clock.now r.machine.world = .ok now v ∧
      r.times core [.tick clock] = [now, later] ∧
      d = r.scheduler.cadence.interval - (later - (r.inWorld v).reference now) := by
  cases awake : r.scheduler.stopped with
  | true =>
    rw [Act.answer_of_ok (tick_idle core clock awake)] at answered
    cases answered
    cases delay
  | false =>
    have sights := RigOp.sights_tick core clock awake
    cases read : clock.now r.machine.world with
    | error p v =>
      rw [tick_eq, Act.answer_of_error (tickBy_of_panic _ clock awake read)] at answered
      cases answered
    | ok now v =>
      rw [read] at sights
      rw [tick_eq, Act.answer, tickBy_eq _ _ awake, read] at answered
      dsimp only at answered sights
      cases again : clock.now ((r.inWorld v).paced (Session.step core) now).machine.world with
      | error p u =>
        rw [again] at answered
        cases answered
      | ok later u =>
        rw [again] at answered sights
        cases answered
        rw [TickReport.of_delay] at delay
        refine ⟨now, v, later, rfl, rfl, ?_, (Option.some.inj delay).symm⟩
        rw [Rig.times, Rig.sights_singleton, sights]
        rfl

end Scheduler

/-! ## Between two ticks -/

namespace RigOp

/-- Whether the scheduler is called to tick. -/
def isTick : RigOp σ → Bool
  | tick _ => true
  | _ => false

variable (core : Core σ) (op : RigOp σ)

/-- Only a tick changes how the scheduler paces the session. -/
theorem pace_kept (quiet : op.isTick = false) (r : Rig σ) :
    ((op.act core).after r).scheduler.cadence = r.scheduler.cadence ∧
      ((op.act core).after r).scheduler.lastStep = r.scheduler.lastStep := by
  cases op with
  | session op =>
    rw [act, Act.after_map, Rig.onMachine, Act.after_within]
    exact ⟨rfl, rfl⟩
  | tick clock => cases quiet
  | refresh renderer =>
    have kept := Rig.refresh_keeps_pace core renderer
    rw [act, Act.after_map]
    exact ⟨congrArg Emulation.cadence (kept r), congrArg Emulation.lastStep (kept r)⟩
  | stop => exact ⟨rfl, rfl⟩

theorem lastStep_told (r : Rig σ) {last : Duration} (h : last ∈ ((op.act core).after r).scheduler.lastStep) :
    last ∈ r.scheduler.lastStep ∨ last ∈ r.times core [op] := by
  cases op with
  | session op => exact .inl (by rwa [((session op).pace_kept core rfl r).2] at h)
  | refresh renderer => exact .inl (by rwa [((refresh renderer).pace_kept core rfl r).2] at h)
  | stop => exact .inl h
  | tick clock =>
    rw [act, Act.after_map] at h
    cases awake : r.scheduler.stopped with
    | true =>
      rw [Act.after_of_ok (Scheduler.tick_idle core clock awake)] at h
      exact .inl h
    | false =>
      have sights := sights_tick core clock awake
      rw [Scheduler.tick_eq] at h
      cases read : clock.now r.machine.world with
      | error p v =>
        rw [Act.after_of_error (Scheduler.tickBy_of_panic _ clock awake read)] at h
        exact .inl h
      | ok now v =>
        rw [Scheduler.after_tickBy _ clock awake read, Rig.inWorld_scheduler, Rig.paced_lastStep] at h
        split_ifs at h
        · refine .inr ?_
          rw [read] at sights
          rw [Rig.times, Rig.sights_singleton, sights, ← Option.some.inj h]
          exact List.mem_cons_self
        · exact .inl h

end RigOp

namespace Rig

variable (core : Core σ)

theorem run_pace_kept (ops : List (RigOp σ)) (quiet : ∀ op ∈ ops, op.isTick = false) (r : Rig σ) :
    (run core ops r).scheduler.cadence = r.scheduler.cadence ∧
      (run core ops r).scheduler.lastStep = r.scheduler.lastStep := by
  induction ops generalizing r with
  | nil => exact ⟨rfl, rfl⟩
  | cons op ops ih =>
    obtain ⟨this, rest⟩ := List.forall_mem_cons.mp quiet
    obtain ⟨cadence, lastStep⟩ := op.pace_kept core this r
    rw [← cadence, ← lastStep]
    exact ih rest _

/-- **The last step was attempted at a time that a clock told**, if it was in the run. -/
theorem lastStep_told (ops : List (RigOp σ)) (r : Rig σ) {last : Duration}
    (h : last ∈ (run core ops r).scheduler.lastStep) :
    last ∈ r.scheduler.lastStep ∨ last ∈ r.times core ops := by
  induction ops generalizing r with
  | nil => exact .inl h
  | cons op ops ih =>
    rw [times_cons]
    rcases ih _ h with before | now
    · exact (op.lastStep_told core r before).imp_right fun h => List.mem_append_left _ h
    · exact .inr (List.mem_append_right _ now)

theorem mem_head?_times {clock : Clock σ} {r : Rig σ} {now : Duration}
    (h : now ∈ (r.times core [.tick clock]).head?) :
    r.scheduler.stopped = false ∧ ∃ v, clock.now r.machine.world = .ok now v := by
  rw [times, sights_singleton] at h
  cases awake : r.scheduler.stopped with
  | true =>
    rw [RigOp.sights_tick_stopped core r clock awake] at h
    cases h
  | false =>
    rw [RigOp.sights_tick core clock awake] at h
    cases read : clock.now r.machine.world with
    | error p v =>
      rw [read] at h
      cases h
    | ok first v =>
      rw [read] at h
      cases h
      exact ⟨rfl, v, rfl⟩

/-- Until the next tick a step falls due when it does after the last one. -/
theorem run_isDue {clock : Clock σ} {r : Rig σ} {now : Duration} {v : σ} (awake : r.scheduler.stopped = false)
    (read : clock.now r.machine.world = .ok now v) {between : List (RigOp σ)}
    (quiet : ∀ op ∈ between, op.isTick = false) (n : Duration) :
    (run core (.tick clock :: between) r).scheduler.isDue n =
      ((r.inWorld v).paced (Session.step core) now).scheduler.isDue n := by
  have ticked : ((RigOp.tick clock).act core).after r =
      ((r.inWorld v).paced (Session.step core) now).inWorld
        (clock.now.after ((r.inWorld v).paced (Session.step core) now).machine.world) := by
    rw [RigOp.act, Act.after_map, Scheduler.tick_eq, Scheduler.after_tickBy _ clock awake read]
  obtain ⟨cadence, lastStep⟩ := run_pace_kept core between quiet (((RigOp.tick clock).act core).after r)
  unfold Scheduler.isDue
  rw [run_cons, cadence, lastStep, ticked]
  rfl

/-- **The delay of a tick is exact.** In a run in which no clock goes back, a tick that asks for a delay has read
its clock twice. Until the next tick nothing that a host does makes a difference to it: where the session runs
then, it is stepped if the delay has passed since the second reading. If it ran at the first tick too, it is
stepped only then. -/
theorem delay_exact (m : Machine σ) (c : Cadence) (before between : List (RigOp σ)) (clock : Clock σ)
    (quiet : ∀ op ∈ between, op.isTick = false) :
    let start : Rig σ := ⟨m, .fresh c⟩
    let r := run core before start
    let q := run core (before ++ .tick clock :: between) start
    ∀ report d, (Scheduler.tick core clock).answer r = .ok report → report.delay = some d →
      (start.times core (before ++ [.tick clock])).Pairwise (· ≤ ·) →
      ∃ now e, r.times core [.tick clock] = [now, e] ∧
        ∀ clock' n, n ∈ (q.times core [.tick clock']).head? → e ≤ n → q.machine.session.isRunning = true →
          (r.machine.session.isRunning = true →
            q.stepCalls core clock' = if e.nanos + d.nanos ≤ n.nanos then 1 else 0) ∧
          (e.nanos + d.nanos ≤ n.nanos → q.stepCalls core clock' = 1) := by
  intro start r q report d answered delay forward
  obtain ⟨now, v, e, awake, read, told, rfl⟩ := Scheduler.tick_delay answered delay
  refine ⟨now, e, told, fun clock' n next later running => ?_⟩
  -- no step was attempted after the first reading, which is not after the second
  rw [times_append, told, List.pairwise_append] at forward
  obtain ⟨-, twice, inOrder⟩ := forward
  have ahead : now ≤ e := List.rel_of_pairwise_cons twice List.mem_cons_self
  have past : ∀ last ∈ r.scheduler.lastStep, last ≤ now := by
    intro last h
    rcases lastStep_told core before start h with none | earlier
    · cases none
    · exact inOrder last earlier now List.mem_cons_self
  -- the next tick steps a running session exactly if a step has fallen due
  obtain ⟨awake', v', read'⟩ := mem_head?_times core next
  have due : q.scheduler.isDue n = ((r.inWorld v).paced (Session.step core) now).scheduler.isDue n := by
    rw [← run_isDue core awake read quiet n, ← run_append]
  have steps : q.stepCalls core clock' =
      if ((r.inWorld v).paced (Session.step core) now).scheduler.isDue n = true then 1 else 0 := by
    rw [stepCalls_eq core clock' awake' read', attempts, running, due, Bool.true_and]
    cases ((r.inWorld v).paced (Session.step core) now).scheduler.isDue n <;> rfl
  constructor
  · intro ran
    rw [steps]
    exact if_congr (paced_isDue (r := r.inWorld v) ran past ahead later) rfl rfl
  · intro passed
    rw [steps]
    refine if_pos ?_
    cases ran : r.machine.session.isRunning with
    | true => exact (paced_isDue (r := r.inWorld v) ran past ahead later).mpr passed
    | false => exact paced_isDue_of_idle (r := r.inWorld v) ran past ahead passed

/-- A clock that moves by three with every call of a core that is called seven times. -/
def busyClock : Clock (List (Option Fault)) :=
  ⟨do return .ofNanos (21 - 3 * .ofNat (← get).length), fun _ => return⟩

theorem delay_exact_busyClock :
    let q := run .faulty [.tick busyClock, .session .reset] lateGame
    (Scheduler.tick .faulty busyClock).answer lateGame = .ok ⟨false, some (.ofNanos 14), some "panic"⟩ ∧
      lateGame.times .faulty [.tick busyClock] = [.ofNanos 6, .ofNanos 12] ∧
      q.stepCalls .faulty (clockAt (.ofNanos 25)) = 0 ∧ q.stepCalls .faulty (clockAt (.ofNanos 26)) = 1 := by
  have answered : (Scheduler.tick .faulty busyClock).answer lateGame =
      .ok ⟨false, some (.ofNanos 14), some "panic"⟩ := rfl
  have told : lateGame.times .faulty [.tick busyClock] = [.ofNanos 6, .ofNanos 12] := rfl
  obtain ⟨now, e, same, waits⟩ := delay_exact .faulty lateStart.machine lateStart.scheduler.cadence
    [.session (.loadRom .empty)] [.session .reset] busyClock (by simp [RigOp.isTick]) _ _ answered rfl
    (by decide)
  obtain ⟨rfl, rfl⟩ : now = .ofNanos 6 ∧ e = .ofNanos 12 := by simpa using same.symm.trans told
  refine ⟨answered, told, ?_, ?_⟩
  · exact (waits (clockAt (.ofNanos 25)) (.ofNanos 25) rfl (by decide) rfl).1 rfl
  · exact (waits (clockAt (.ofNanos 26)) (.ofNanos 26) rfl (by decide) rfl).2 (by decide)

end Rig

end EmulatorHost
