import EmulatorHost.Proofs.Scheduler.Operation
import Mathlib.Data.List.Chain

/-!
# Pacing

* `Rig.stepCalls`: how often a tick steps the session; **`Rig.stepCalls_eq`**.
* `Rig.stepTimes`: the first readings of the ticks of a run that did.
* `Paces`: what a scheduler knows of them; **`RigOp.paces`**: it stays true.
* **`Rig.run_paced`**: in a run, steps are attempted when one is due, and at least an interval apart.
-/

namespace EmulatorHost

variable {σ : Type}

/-! ## Counting -/

/-- A step of the session that is counted as it begins. -/
def Core.countedStep (core : Core σ) : Act (Machine (σ × Nat)) (Except Failure Bool) := do
  modify fun m => { m with world := (m.world.1, m.world.2 + 1) }
  Session.step core.aside

/-- How often a tick steps the session. -/
def Rig.stepCalls (core : Core σ) (clock : Clock σ) (r : Rig σ) : Nat :=
  ((Scheduler.tickBy core.countedStep clock.aside).after (r.view (·, 0))).machine.world.2

variable (core : Core σ)

theorem Core.after_countedStep (m : Machine (σ × Nat)) :
    (core.countedStep.after m).world.2 = m.world.2 + 1 := by
  have kept := Op.step.act_aside core { m with world := (m.world.1, m.world.2 + 1) }
  rw [Op.act, Act.after_map] at kept
  exact kept

/-- **Counting does not change a tick.** -/
theorem Rig.counted_tick (clock : Clock σ) (r : Rig (σ × Nat)) :
    Act.Projects (Rig.view Prod.fst) (Scheduler.tickBy core.countedStep clock.aside)
      (Scheduler.tick core clock) r := by
  have stepped {r : Rig (σ × Nat)} {q : Rig σ} (h : Rig.Like (fun w v => w.1 = v) Eq r q) :
      Act.Agrees (Rig.Like (fun w v => w.1 = v) Eq) (onMachine core.countedStep)
        (onMachine (Session.step core)) r q := by
    refine onMachine_like ?_
    exact step_like (m := { r.machine with world := (r.machine.world.1, r.machine.world.2 + 1) })
      (fun _ _ l => Scheduler.bond_eq.note l) core.aside_projects.agrees ⟨h.session, h.world, h.kept⟩
  exact projects_of_like
    (tickBy_like Scheduler.bond_eq stepped (fun h => h ▸ (clock.now.aside_fst _).agrees) (like_view Prod.fst r))

namespace Rig

variable (core : Core σ) (clock : Clock σ) {r : Rig σ} {now : Duration} {v : σ}

/-- **A tick steps the session once if a step is due, and otherwise not.** -/
theorem stepCalls_eq (awake : r.scheduler.stopped = false)
    (read : clock.now r.machine.world = .ok now v) :
    r.stepCalls core clock = (r.attempts now).toNat := by
  have reading : clock.aside.now (r.view (·, 0)).machine.world = .ok now (v, 0) :=
    (clock.now.projects_aside 0 _).trans (congrArg (Act.view (·, 0)) read)
  unfold stepCalls
  rw [Scheduler.after_tickBy core.countedStep clock.aside (r := r.view (·, 0)) awake reading]
  rw [inWorld_world, Clock.aside, Act.after_aside]
  unfold paced
  change (ite (r.attempts now = true) _ _ : Rig (σ × Nat)).machine.world.2 = _
  cases r.attempts now with
  | false => rfl
  | true =>
    rw [if_pos rfl, attempted_world, core.after_countedStep]
    rfl

theorem stepCalls_of_stopped (stopped : r.scheduler.stopped = true) : r.stepCalls core clock = 0 := by
  have stopped : (r.view fun w => (w, 0)).scheduler.stopped = true := stopped
  rw [stepCalls, Act.after_of_ok (Scheduler.tickBy_idle core.countedStep clock.aside stopped)]
  rfl

theorem stepCalls_of_panic (awake : r.scheduler.stopped = false) {p : Panic}
    (read : clock.now r.machine.world = .error p v) : r.stepCalls core clock = 0 := by
  have reading : clock.aside.now (r.view (·, 0)).machine.world = .error p (v, 0) :=
    (clock.now.projects_aside 0 _).trans (congrArg (Act.view (·, 0)) read)
  have awake : (r.view fun w => (w, 0)).scheduler.stopped = false := awake
  rw [stepCalls, Act.after_of_error (Scheduler.tickBy_of_panic core.countedStep clock.aside awake reading)]
  rfl

end Rig

/-! ## When steps are attempted -/

/-- The first reading of a tick's clock, once for every time the tick steps the session. -/
def RigOp.stepTimes (core : Core σ) (r : Rig σ) : RigOp σ → List Duration
  | tick clock =>
    match clock.now r.machine.world with
    | .ok now _ => List.replicate (r.stepCalls core clock) now
    | .error _ _ => []
  | session _ => []
  | refresh _ => []
  | stop => []

/-- The times of the steps that the ticks of a run attempt, the first one first. -/
def Rig.stepTimes (core : Core σ) : List (RigOp σ) → Rig σ → List Duration
  | [], _ => []
  | op :: ops, r => op.stepTimes core r ++ stepTimes core ops ((op.act core).after r)

/-- What a scheduler knows after steps were attempted at some times. -/
structure Paces (c : Cadence) (past : List Duration) (s : Scheduler) : Prop where
  cadence : s.cadence = c
  awake : s.stopped = false
  lastStep : s.lastStep = past.getLast?
  spaced : past.IsChain fun earlier later => c.interval ≤ later - earlier

namespace Paces

variable {c : Cadence} {past : List Duration} {s t : Scheduler}

theorem of_eq (h : Paces c past s) (same : t.cadence = s.cadence) (stopped : t.stopped = s.stopped)
    (lastStep : t.lastStep = s.lastStep) : Paces c past t :=
  ⟨same.trans h.cadence, stopped.trans h.awake, lastStep.trans h.lastStep, h.spaced⟩

theorem isDue_iff (h : Paces c past s) (now : Duration) :
    s.isDue now = true ↔ ∀ last ∈ past.getLast?, c.interval ≤ now - last := by
  unfold Scheduler.isDue
  rw [h.lastStep, h.cadence]
  cases past.getLast? <;> simp

theorem arm (h : Paces c past s) {now : Duration} (due : s.isDue now = true)
    (same : t.cadence = s.cadence) (stopped : t.stopped = s.stopped) (lastStep : t.lastStep = some now) :
    Paces c (past ++ [now]) t where
  cadence := same.trans h.cadence
  awake := stopped.trans h.awake
  lastStep := by rw [lastStep, List.getLast?_concat]
  spaced := by
    refine List.isChain_append.mpr ⟨h.spaced, .singleton _, fun last hlast next hnext => ?_⟩
    obtain rfl : now = next := by simpa using hnext
    exact (h.isDue_iff now).mp due last hlast

end Paces

/-- **An operation of a host leaves the scheduler with what it knows.** -/
theorem RigOp.paces (core : Core σ) {c : Cadence} {past : List Duration} {r : Rig σ} (op : RigOp σ)
    (h : Paces c past r.scheduler) (going : op.isStop = false) :
    Paces c (past ++ op.stepTimes core r) ((op.act core).after r).scheduler := by
  cases op with
  | session op =>
    rw [act, Act.after_map, Rig.onMachine, Act.after_within, stepTimes, List.append_nil]
    exact h
  | tick clock =>
    rw [act, Act.after_map, Scheduler.tick_eq, stepTimes]
    cases read : clock.now r.machine.world with
    | error p v =>
      rw [Act.after_of_error (Scheduler.tickBy_of_panic _ clock h.awake read), List.append_nil]
      exact h
    | ok now v =>
      rw [Scheduler.after_tickBy _ _ h.awake read, Rig.stepCalls_eq core clock h.awake read]
      dsimp only [Rig.inWorld_scheduler]
      unfold Rig.paced
      change Paces _ _ (ite (r.attempts now = true) _ _ : Rig σ).scheduler
      cases attempts : r.attempts now with
      | false => simpa using h
      | true =>
        have due : r.scheduler.isDue now = true := (Bool.and_eq_true_iff.mp attempts).2
        rw [if_pos rfl]
        exact h.arm due (by simp) (by simp) (by simp)
  | refresh renderer =>
    have kept := Rig.refresh_keeps_pace core renderer
    rw [act, Act.after_map, stepTimes, List.append_nil]
    exact h.of_eq (congrArg Emulation.cadence (kept r)) (congrArg Emulation.stopped (kept r))
      (congrArg Emulation.lastStep (kept r))
  | stop => cases going

/-- Times an interval apart, in order, between two others: there is room for so many. -/
theorem length_le_of_spaced {l : List Nat} {interval a b : Nat}
    (spaced : l.Pairwise fun m n => m + interval ≤ n) (above : ∀ m ∈ l, a ≤ m) (below : ∀ m ∈ l, m ≤ b) :
    l.length * interval ≤ b - a + interval := by
  induction l generalizing a with
  | nil => simp
  | cons m l ih =>
    obtain ⟨after, rest⟩ := List.pairwise_cons.mp spaced
    have first : a ≤ m := above m List.mem_cons_self
    have room := ih rest after fun n hn => below n (List.mem_cons_of_mem _ hn)
    rw [List.length_cons, Nat.succ_mul]
    cases l with
    | nil => simp
    | cons n l =>
      have next : m + interval ≤ n := after n List.mem_cons_self
      have last : n ≤ b := below n (by simp)
      omega

section Window

variable {c : Cadence} {past : List Duration} {s : Scheduler}

theorem Paces.pairwise (h : Paces c past s) (positive : Duration.zero < c.interval) :
    past.Pairwise fun earlier later => earlier.nanos + c.interval.nanos ≤ later.nanos := by
  have positive : 0 < c.interval.nanos := positive
  have chain : past.IsChain fun earlier later => earlier.nanos + c.interval.nanos ≤ later.nanos := by
    refine h.spaced.imp fun earlier later apart => ?_
    have apart : c.interval.nanos ≤ later.nanos - earlier.nanos := apart
    omega
  have : IsTrans Duration fun earlier later => earlier.nanos + c.interval.nanos ≤ later.nanos :=
    ⟨fun _ _ _ _ _ => by omega⟩
  exact List.isChain_iff_pairwise.mp chain

theorem Paces.window (h : Paces c past s) (positive : Duration.zero < c.interval) (a b : Duration) :
    past.countP (fun t => a ≤ t ∧ t ≤ b) ≤ (b - a).nanos / c.interval.nanos + 1 := by
  have inside := (h.pairwise positive).filter fun t => decide (a ≤ t ∧ t ≤ b)
  have positive : 0 < c.interval.nanos := positive
  rw [List.countP_eq_length_filter, ← List.length_map Duration.nanos, ← Nat.add_div_right _ positive,
    Nat.le_div_iff_mul_le positive]
  refine length_le_of_spaced (List.pairwise_map.mpr inside) (fun m hm => ?_) fun m hm => ?_
  all_goals
    obtain ⟨t, ht, rfl⟩ := List.mem_map.mp hm
    have := of_decide_eq_true (List.mem_filter.mp ht).2
  · exact this.1
  · exact this.2

end Window

/-! ## Runs -/

namespace Rig

variable (core : Core σ)

theorem run_paces {c : Cadence} {past : List Duration} (ops : List (RigOp σ)) (r : Rig σ)
    (h : Paces c past r.scheduler) (going : ∀ op ∈ ops, op.isStop = false) :
    Paces c (past ++ stepTimes core ops r) (run core ops r).scheduler := by
  induction ops generalizing r past with
  | nil => simpa [stepTimes] using h
  | cons op ops ih =>
    obtain ⟨this, rest⟩ := List.forall_mem_cons.mp going
    rw [stepTimes, ← List.append_assoc]
    exact ih _ (op.paces core h this) rest

/-- A tick of a scheduler that was not stopped answers as soon as its clock does, and asks to be called
again within the interval. -/
theorem tick_answers {r : Rig σ} {clock : Clock σ} (awake : r.scheduler.stopped = false)
    (tells : ∀ w, ∃ now v, clock.now w = .ok now v) :
    ∃ report delay, (Scheduler.tick core clock).answer r = .ok report ∧ report.delay = some delay ∧
      delay ≤ r.scheduler.cadence.interval := by
  obtain ⟨now, v, read⟩ := tells r.machine.world
  obtain ⟨later, u, again⟩ := tells ((r.inWorld v).paced (Session.step core) now).machine.world
  refine ⟨_, _, Scheduler.answer_tickBy _ clock awake read (Act.answer_of_ok again),
    TickReport.of_delay _ _, Duration.sub_le _ _⟩

/-- **Pacing.** After any run without a stop: a tick steps the session once if the session runs and no tick
did before, or the latest that did read its clock a full interval earlier, and otherwise not at all. With
a positive interval any two attempts are an interval apart, so that at most so many fall into a window of
time. And a tick whose clock tells the time answers, with a delay no longer than the interval. -/
theorem run_paced (m : Machine σ) (c : Cadence) (ops : List (RigOp σ))
    (going : ∀ op ∈ ops, op.isStop = false) :
    let start : Rig σ := ⟨m, .fresh c⟩
    let r := run core ops start
    let past := stepTimes core ops start
    (∀ clock now v, clock.now r.machine.world = .ok now v →
      r.stepCalls core clock =
        if r.machine.session.isRunning ∧ ∀ last ∈ past.getLast?, c.interval ≤ now - last then 1 else 0) ∧
    (Duration.zero < c.interval →
      (past.Pairwise fun earlier later => earlier.nanos + c.interval.nanos ≤ later.nanos) ∧
      ∀ a b, past.countP (fun t => a ≤ t ∧ t ≤ b) ≤ (b - a).nanos / c.interval.nanos + 1) ∧
    ∀ clock : Clock σ, (∀ w, ∃ now v, clock.now w = .ok now v) →
      ∃ report delay, (Scheduler.tick core clock).answer r = .ok report ∧ report.delay = some delay ∧
        delay ≤ c.interval := by
  intro start r past
  have fresh : Paces c [] start.scheduler := ⟨rfl, rfl, rfl, .nil⟩
  have paces : Paces c past r.scheduler := run_paces core ops start fresh going
  refine ⟨fun clock now v read => ?_, fun positive => ?_, fun clock tells => ?_⟩
  · have attempts : r.attempts now = true ↔
        r.machine.session.isRunning ∧ ∀ last ∈ past.getLast?, c.interval ≤ now - last := by
      rw [Rig.attempts, Bool.and_eq_true, paces.isDue_iff]
    rw [stepCalls_eq core clock paces.awake read]
    by_cases h : r.attempts now = true
    · rw [if_pos (attempts.mp h), h]
      rfl
    · rw [if_neg (mt attempts.mpr h), Bool.not_eq_true _ |>.mp h]
      rfl
  · exact ⟨paces.pairwise positive, paces.window positive⟩
  · rw [← paces.cadence]
    exact tick_answers core paces.awake tells

/-- A clock that always tells the same time. -/
def clockAt (now : Duration) : Clock σ := ⟨return now, fun _ => return⟩

/-- A host that ticks late, and once too early. -/
def lateTicks : List (RigOp σ) :=
  [.session (.loadRom .empty), .tick (clockAt (.ofNanos 7)), .tick (clockAt (.ofNanos 12)), .session .reset,
    .tick (clockAt (.ofNanos 40)), .tick (clockAt (.ofNanos 60))]

/-- A core whose first step panics and whose second one fails, and a scheduler with an interval of twenty. -/
def lateStart : Rig (List (Option Fault)) :=
  ⟨.fresh .faulty .packed [none, none, none, some (.panic .other), none, none, some (.failure ⟨[]⟩)],
    .fresh ⟨.ofNanos 20, .frame⟩⟩

/-- The same once the session runs. -/
def lateGame : Rig (List (Option Fault)) := run .faulty [.session (.loadRom .empty)] lateStart

theorem run_paced_lateTicks :
    (∀ op ∈ (lateTicks : List (RigOp (List (Option Fault)))), op.isStop = false) ∧
      Duration.zero < lateStart.scheduler.cadence.interval ∧
      (stepTimes .faulty lateTicks lateStart).Pairwise fun earlier later =>
        earlier.nanos + lateStart.scheduler.cadence.interval.nanos ≤ later.nanos := by
  have going : ∀ op ∈ (lateTicks : List (RigOp (List (Option Fault)))), op.isStop = false := by
    simp [lateTicks, RigOp.isStop]
  have positive : Duration.zero < lateStart.scheduler.cadence.interval := by decide
  exact ⟨going, positive, ((run_paced .faulty lateStart.machine _ lateTicks going).2.1 positive).1⟩

example : (stepTimes .faulty lateTicks lateStart).map Duration.nanos = [7, 40, 60] := by decide

end Rig

end EmulatorHost
