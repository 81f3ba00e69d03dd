import EmulatorHost.Proofs.Host.View
import EmulatorHost.Proofs.Scheduler.Faults

/-!
# What a run of the loop counts

* `HostLoop.Measures`: a quantity that grows as one of the counts of a loop does, callback by callback.
* **`HostLoop.Measures.run`**: over a run that returns it has grown by what the run counted.
* `HostLoop.measures_faults`, `HostLoop.measures_steps`, `HostLoop.measures_paints`: the faults of the
  scheduler, the steps that the core took, and the pictures that the renderer took.
* **`faults_contained`**: faults are contained, reported and counted, and a loop's statistics are right.
-/

namespace EmulatorHost

variable {σ : Type}

/-- From a rig to the next `μ` grows as the count of a loop does, and with its callbacks only. -/
structure HostLoop.Measures (h : HostLoop σ) (μ : Rig σ → Nat) (count : LoopStats → Nat) : Prop where
  zero : count .zero = 0
  tick (s : LoopStats) (r : Rig σ) : Act.Ends (Scheduler.tick h.core h.clock) r
    (fun report q => μ q + count s = μ r + count (s.addTick report)) fun _ => True
  refresh (s : LoopStats) (r : Rig σ) : Act.Ends (Scheduler.refresh h.core h.renderer) r
    (fun report q => μ q + count s = μ r + count (s.addRefresh report)) fun _ => True
  now : Act.Keeps μ (Rig.call h.clock.now)
  sleep (span : Duration) : Act.Keeps μ (Rig.call (h.clock.sleep span))
  poll : Act.Keeps μ (Rig.call h.input.poll)
  apply (e : ButtonEvent) : Act.Keeps μ (Rig.onMachine (Session.apply h.core e))
  leave (level : Level) (message : String) (r : Rig σ) :
    μ ((r.mapScheduler Scheduler.stop).note level message) = μ r

/-- What had been counted when a part of a turn ended. -/
def TurnEnd.stats : TurnEnd → LoopStats
  | goOn s => s.stats
  | leave stats => stats

namespace HostLoop.Measures

variable {h : HostLoop σ} {μ : Rig σ → Nat} {count : LoopStats → Nat} (m : h.Measures μ count)

section Parts

open Act Act.Ends

variable {α : Type} {n : Nat} {r : Rig σ}

theorem of_keeps {x : Act (Rig σ) α} (keeps : Act.Keeps μ x) (b : μ r = n) :
    Ends x r (fun _ q => μ q = n) fun _ => True :=
  (of_moves (R := fun w v => μ v = μ w) keeps).imp (fun _ _ same => same.trans b) fun _ _ => trivial

theorem of_ofExcept (e : Except Panic α) (b : μ r = n) :
    Ends (Act.ofExcept e) r (fun _ q => μ q = n) fun _ => True :=
  Ends.of_ofExcept (fun _ _ => b) fun _ _ => trivial

include m

theorem drain (fuel : Nat) : Act.Keeps μ (h.drain fuel) := by
  induction fuel with
  | zero => exact .of_pure _
  | succ fuel ih =>
    unfold HostLoop.drain
    refine m.poll.andThen fun event => ?_
    cases event with
    | none => exact .of_pure _
    | some e => exact (m.apply e).andThen fun _ => ih

theorem tickTurn (s : LoopState) (b : μ r = n + count s.stats) :
    Ends (h.tickTurn s) r (fun ended q => μ q = n + count ended.stats) fun _ => True := by
  unfold HostLoop.tickTurn
  refine (m.tick s.stats r).andThen fun report q grown => ?_
  have b : μ q = n + count (s.stats.addTick report) := by omega
  dsimp only
  cases report.delay with
  | none => exact of_pure b
  | some delay =>
    refine (of_keeps m.now b).andThen fun now q b => ?_
    refine (of_ofExcept _ b).andThen fun _ q b => ?_
    exact of_pure b

theorem tickIfDue (fuel : Nat) (now : Duration) (s : LoopState) (b : μ r = n + count s.stats) :
    Ends (h.tickIfDue fuel now s) r (fun ended q => ∀ e ∈ ended, μ q = n + count e.stats) fun _ => True := by
  unfold HostLoop.tickIfDue
  refine of_ite (fun _ => ?_) fun _ => of_pure fun e he => Option.mem_some.mp he ▸ b
  refine (of_keeps (m.drain fuel) b).andThen fun dry q b => of_ite (fun _ => ?_) fun _ => of_pure nofun
  exact of_map ((m.tickTurn s b).imp (fun ended q b e he => Option.mem_some.mp he ▸ b) fun _ _ => trivial)

theorem showIfDue (now : Duration) (s : LoopState) (b : μ r = n + count s.stats) :
    Ends (h.showIfDue now s) r (fun s q => μ q = n + count s.stats) fun _ => True := by
  unfold HostLoop.showIfDue
  refine of_ite (fun _ => ?_) fun _ => of_pure b
  refine (m.refresh s.stats r).andThen fun report q grown => ?_
  have b : μ q = n + count (s.stats.addRefresh report) := by omega
  refine (of_ofExcept _ b).andThen fun _ q b => ?_
  exact of_pure b

theorem wait (s : LoopState) : Act.Keeps μ (h.wait s) := by
  unfold HostLoop.wait
  refine m.now.andThen fun now => ?_
  split_ifs
  · exact m.sleep _
  · exact .of_pure _

theorem turn (fuel : Nat) (s : LoopState) (b : μ r = n + count s.stats) :
    Ends (h.turn fuel s) r (fun ended q => ∀ e ∈ ended, μ q = n + count e.stats) fun _ => True := by
  rw [turn_eq]
  refine (of_keeps m.now b).andThen fun now q b => ?_
  refine (m.tickIfDue fuel now s b).andThen fun ticked q b => ?_
  rcases ticked with _ | s | stats
  · exact of_pure nofun
  · have b : μ q = n + count s.stats := b _ rfl
    refine get_andThen (of_ite (fun _ => of_pure fun e he => Option.mem_some.mp he ▸ b) fun _ => ?_)
    rw [refreshTurn_eq, bind_assoc]
    refine (m.showIfDue now s b).andThen fun s q b => ?_
    rw [bind_assoc]
    exact (of_keeps (m.wait s) b).andThen fun _ q b => of_pure fun e he => Option.mem_some.mp he ▸ b
  · exact of_pure fun e he => Option.mem_some.mp he ▸ b _ rfl

theorem turns (fuel : Nat) (s : LoopState) (b : μ r = n + count s.stats) :
    Ends (h.turns fuel s) r (fun stats q => ∀ s ∈ stats, μ q = n + count s) fun _ => True := by
  induction fuel generalizing s r with
  | zero => exact of_pure nofun
  | succ fuel ih =>
    unfold HostLoop.turns
    refine get_andThen (of_ite (fun _ => of_pure fun e he => Option.mem_some.mp he ▸ b) fun _ => ?_)
    refine (m.turn fuel s b).andThen fun ended q b => ?_
    rcases ended with _ | s | stats
    · exact of_pure nofun
    · exact ih s (b _ rfl)
    · exact of_pure fun e he => Option.mem_some.mp he ▸ b _ rfl

/-- **Over a run that returns the measure has grown by what the run counted.** -/
theorem run (fuel : Nat) (r : Rig σ) :
    Ends (h.run fuel) r (fun stats q => ∀ s ∈ stats, μ q = μ r + count s) fun _ => True := by
  unfold HostLoop.run
  refine (of_keeps m.now rfl).andThen fun start q b => ?_
  have b : μ q = μ r + count LoopStats.zero := by rw [b, m.zero, Nat.add_zero]
  refine (m.turns fuel ⟨.zero, start, start⟩ b).andThen fun ended q b => ?_
  cases ended with
  | none => exact of_pure nofun
  | some stats =>
    refine Ends.andThen (P := fun _ p => p = q.mapScheduler Scheduler.stop) rfl fun _ p same => ?_
    refine Ends.andThen (P := fun _ p => μ p = μ r + count stats) ?_ fun _ p b => ?_
    · rw [same]
      exact (m.leave .info _ q).trans (b _ rfl)
    · exact of_pure fun e he => Option.mem_some.mp he ▸ b

theorem of_run {fuel : Nat} {r q : Rig σ} {stats : LoopStats} (did : h.run fuel r = .ok (some stats) q) :
    μ q = μ r + count stats := by
  have ends := m.run fuel r
  rw [Ends, did] at ends
  exact ends stats rfl

end Parts

end HostLoop.Measures

/-! ## Faults -/

section Quiet

theorem Rig.call_scheduler {α : Type} (x : Act σ α) : Act.Keeps Rig.scheduler (Rig.call x) := by
  intro r
  rw [Rig.call, Rig.onMachine, Act.after_within]

theorem Rig.call_world {α β : Type} {x : Act σ α} {f : σ → β} (h : Act.Keeps f x) :
    Act.Keeps (fun r : Rig σ => f r.machine.world) (Rig.call x) := by
  intro r
  rw [Rig.call, Rig.onMachine, Act.after_within, Session.call, Act.after_within]
  exact h r.machine.world

end Quiet

namespace HostLoop

variable (h : HostLoop σ)

theorem measures_faults : h.Measures (·.scheduler.faults) (·.faults) where
  zero := rfl
  tick s r := .of_ok fun report q did => by
    have counted := (Scheduler.tick_accounts h.core h.clock did).counted
    change _ + s.faults = _ + (s.faults + report.fault.isSome.toNat)
    omega
  refresh s r := by
    obtain ⟨report, q, did, counted, -⟩ := Scheduler.refresh_accounts h.core h.renderer r
    rw [Act.Ends, did]
    change _ + s.faults = _ + (s.faults + report.fault.isSome.toNat)
    omega
  now r := congrArg Scheduler.faults (Rig.call_scheduler _ r)
  sleep span r := congrArg Scheduler.faults (Rig.call_scheduler _ r)
  poll r := congrArg Scheduler.faults (Rig.call_scheduler _ r)
  apply e r := by rw [Rig.onMachine, Act.after_within]
  leave _ _ _ := rfl

end HostLoop

/-! ## Steps of the core -/

/-- Whether a call is a step that the core took. -/
def Exchange.tookStep : Exchange → Bool
  | step (.ok (.ok _)) => true
  | _ => false

/-- Whether an operation answered that the core was stepped. -/
def Answer.tookStep : Except Panic Answer → Bool
  | .ok (.stepped (.ok true)) => true
  | _ => false

namespace Session

variable {s t : Session} {xs : List Exchange}

theorem tookStep_of_isStep (none : xs.countP Exchange.isStep = 0) : xs.countP Exchange.tookStep = 0 := by
  rw [List.countP_eq_zero] at none ⊢
  intro x hx took
  refine none x hx ?_
  unfold Exchange.tookStep at took
  split at took
  · rfl
  · cases took

/-- **A step says so if the core took it**, and only then. -/
theorem Performs.tookStep {r : Except Panic Answer} (h : Performs s .step xs r t) :
    xs.countP Exchange.tookStep = (Answer.tookStep r).toNat := by
  cases h with
  | stepIgnored idle => rfl
  | stepped run h =>
    cases h with
    | cut due => exact tookStep_of_isStep due.countP_isStep
    | unannounced due packed q =>
      rw [List.countP_append, tookStep_of_isStep due.countP_isStep]
      rfl
    | uncounted due full =>
      rw [List.countP_append, tookStep_of_isStep due.countP_isStep, tookStep_of_isStep (countP_announced _)]
      rfl
    | taken due room o =>
      rw [List.countP_append, List.countP_append, tookStep_of_isStep due.countP_isStep,
        tookStep_of_isStep (countP_announced _)]
      rcases o with _ | _ | _ <;> rfl

end Session

theorem TickReport.stepped_of (o : Except Panic (Except Failure Bool)) (delay : Duration) :
    (TickReport.of ((Act.caught o).mapError Fault.message) delay).stepped =
      Answer.tookStep (o.map Answer.stepped) := by
  rcases o with _ | _ | _ | _ <;> rfl

namespace HostLoop

variable (h : HostLoop σ)

/-- How many steps the core took so far. -/
def stepsTaken (r : Rig (Traced σ)) : Nat := r.machine.world.2.countP Exchange.tookStep

theorem stepsTaken_call {α : Type} (x : Act σ α) : Act.Keeps stepsTaken (Rig.call x.aside) :=
  fun r => congrArg (List.countP Exchange.tookStep) (Rig.call_world x.aside_keeps r)

theorem stepsTaken_paced (core : Core σ) (now delay : Duration) (r : Rig (Traced σ)) :
    stepsTaken (r.paced (Session.step core.traced) now) =
      stepsTaken r + (TickReport.of (r.outcome (Session.step core.traced) now) delay).stepped.toNat := by
  unfold Rig.paced Rig.outcome
  split_ifs
  · obtain ⟨xs, calls, performs⟩ := Op.act_yields core .step r.machine
    rw [Op.act, Act.after_map] at calls
    rw [Op.act, Act.answer_map] at performs
    rw [stepsTaken, Rig.attempted_world, calls, List.countP_append, performs.tookStep, TickReport.stepped_of]
    rfl
  · rfl

theorem stepsTaken_tick {r q : Rig (Traced σ)} {report : TickReport}
    (did : Scheduler.tick h.traced.core h.traced.clock r = .ok report q) :
    stepsTaken q = stepsTaken r + report.stepped.toNat := by
  rcases Scheduler.tick_ok _ _ did with ⟨-, rfl, rfl⟩ | ⟨-, now, v, delay, read, rfl, rfl⟩
  · rfl
  · -- neither reading of the clock is written down, so only the step in between counts
    have first : v.2 = r.machine.world.2 := by
      rw [← Act.after_of_ok read]
      exact h.clock.now.aside_keeps _
    have begun : stepsTaken (r.inWorld v) = stepsTaken r := congrArg (List.countP Exchange.tookStep) first
    have paced : stepsTaken ((r.inWorld v).paced (Session.step h.traced.core) now) = stepsTaken (r.inWorld v) +
        (TickReport.of ((r.inWorld v).outcome (Session.step h.traced.core) now) delay).stepped.toNat :=
      stepsTaken_paced h.core now delay (r.inWorld v)
    generalize (r.inWorld v).paced (Session.step h.traced.core) now = p at paced
    have ended : stepsTaken (p.inWorld (h.traced.clock.now.after p.machine.world)) = stepsTaken p :=
      congrArg (List.countP Exchange.tookStep) (h.clock.now.aside_keeps p.machine.world)
    rw [ended, paced, begun]

theorem stepsTaken_refresh : Act.Keeps stepsTaken (Scheduler.refresh h.traced.core h.traced.renderer) :=
  fun r => congrArg (fun watched => watched.2.countP Exchange.tookStep) (Rig.refresh_watch h.core h.renderer r)

theorem stepsTaken_apply (core : Core σ) (e : ButtonEvent) :
    Act.Keeps stepsTaken (Rig.onMachine (Session.apply core.traced e)) := by
  intro r
  obtain ⟨xs, calls, performs⟩ := Op.act_yields core (.apply e) r.machine
  rw [Op.act, Act.after_map] at calls
  generalize ((Op.apply e).act core.traced).answer r.machine = o at performs
  generalize (((Op.apply e).act core.traced).after r.machine).session = t at performs
  have none : xs.countP Exchange.tookStep = 0 := by
    cases performs with
    | dropped => rfl
    | applied live h => exact Session.tookStep_of_isStep h.frame.2.2.2
  rw [Rig.onMachine, Act.after_within, stepsTaken, calls, List.countP_append, none]
  rfl

theorem measures_steps : h.traced.Measures stepsTaken (·.steps) where
  zero := rfl
  tick s r := .of_ok fun report q did => by
    have taken := h.stepsTaken_tick did
    change _ + s.steps = _ + (s.steps + report.stepped.toNat)
    omega
  refresh s r := (Measures.of_keeps h.stepsTaken_refresh rfl).imp
    (fun _ _ kept => congrArg (· + s.steps) kept) fun _ => id
  now := stepsTaken_call h.clock.now
  sleep span := stepsTaken_call (h.clock.sleep span)
  poll := stepsTaken_call h.input.poll
  apply := stepsTaken_apply h.core
  leave _ _ _ := rfl

end HostLoop

/-! ## Pictures that were taken -/

namespace HostLoop

variable (h : HostLoop σ)

/-- How many pictures the renderer took so far. -/
def pictures (r : Rig (σ × Nat)) : Nat := r.machine.world.2

theorem pictures_call {α : Type} (x : Act σ α) : Act.Keeps pictures (Rig.call x.aside) :=
  Rig.call_world x.aside_keeps

theorem pictures_tick : Act.Keeps pictures (Scheduler.tick h.counted.core h.counted.clock) := fun r => by
  have kept := (RigOp.tick h.clock).act_aside h.core r
  rw [RigOp.aside, RigOp.act, Act.after_map] at kept
  exact kept

theorem pictures_refresh {r q : Rig (σ × Nat)} {report : RefreshReport}
    (did : Scheduler.refresh h.counted.core h.counted.renderer r = .ok report q) :
    pictures q = pictures r + report.painted.toNat := by
  rcases r.idle_or_active with idle | ⟨awake, running⟩
  · rw [Scheduler.refresh_idle h.counted.core h.counted.renderer idle] at did
    cases did
    rfl
  rw [Scheduler.refresh_eq h.counted.core h.counted.renderer awake running] at did
  have exposed : pictures (r.exposed h.counted.core) = pictures r := by
    change (h.core.memory.aside.after r.machine.world).2 = _
    rw [Act.after_aside]
    rfl
  cases shot : r.shot h.counted.core with
  | error f =>
    rw [shot] at did
    cases did
    exact exposed
  | ok picture =>
    rw [shot] at did
    dsimp only at did
    -- the call is counted if it comes to anything but a fault
    generalize is_paint : h.counted.renderer.paint picture _ _ = paint at did
    have counts (w : σ × Nat) : (paint.after w).2 = w.2 + (Act.caught (paint.answer w)).isOk.toNat := by
      rw [← is_paint, counted, Act.after_noting, Act.answer_noting, countTaken]
    have grown := counts (r.exposed h.counted.core).machine.world
    change _ = pictures (r.exposed h.counted.core) + _ at grown
    rw [exposed] at grown
    rw [Rig.showing_machine] at did
    cases taken : Act.caught (paint.answer (r.exposed h.counted.core).machine.world) with
    | error f =>
      rw [taken] at grown did
      cases did
      exact grown
    | ok _ =>
      rw [taken] at grown did
      cases did
      exact grown

theorem measures_paints : h.counted.Measures pictures (·.paints) where
  zero := rfl
  tick s r := (Measures.of_keeps h.pictures_tick rfl).imp (fun _ _ kept => congrArg (· + s.paints) kept) fun _ => id
  refresh s r := .of_ok fun report q did => by
    have taken := h.pictures_refresh did
    change _ + s.paints = _ + (s.paints + report.painted.toNat)
    omega
  now := pictures_call h.clock.now
  sleep span := pictures_call (h.clock.sleep span)
  poll := pictures_call h.input.poll
  apply e r := by
    have kept := (Op.apply e).act_aside h.core r.machine
    rw [Op.act, Act.after_map] at kept
    rw [Rig.onMachine, Act.after_within]
    exact kept
  leave _ _ _ := rfl

/-- **The statistics of a run that returns.** It counts the steps that the core took, the pictures that the
renderer took, and the faults that the scheduler met. -/
theorem run_counts {fuel : Nat} {r q : Rig σ} {stats : LoopStats}
    (did : h.run fuel r = .ok (some stats) q) :
    stats.steps = (h.calls fuel r).countP Exchange.tookStep ∧ stats.paints = h.shown fuel r ∧
      q.scheduler.faults = r.scheduler.faults + stats.faults := by
  have answer := Act.answer_of_ok did
  have traced : (h.traced.run fuel).answer r.traced = .ok (some stats) := by
    rw [← answer]
    exact ((run_view h.traced_agrees fuel r.traced).answer_eq).symm
  have counted : (h.counted.run fuel).answer (r.view (·, 0)) = .ok (some stats) := by
    rw [← answer]
    exact ((run_view h.counted_agrees fuel (r.view (·, 0))).answer_eq).symm
  have steps := h.measures_steps.of_run (Act.eq_of_answer traced)
  have paints := h.measures_paints.of_run (Act.eq_of_answer counted)
  refine ⟨?_, ?_, h.measures_faults.of_run did⟩
  · exact (steps.trans (Nat.zero_add _)).symm
  · exact (paints.trans (Nat.zero_add _)).symm

end HostLoop

/-! ## Containment -/

/-- **Faults are contained and accounted for**, whatever the core and the renderer do. In a run of any
operations every callback whose clock tells the time answers, with work done or a fault but not both, and
the scheduler counts exactly the faults reported. After a tick with a fault the session still runs, and
once an interval has passed since that tick's reading, the first tick that finds it running attempts a
step. And the statistics of a loop that returns are those of what its parties did. -/
theorem faults_contained :
    (∀ (core : Core σ) (ops : List (RigOp σ)) (r : Rig σ), (∀ op ∈ ops, op.Tells) →
      (∀ op reply, (op, reply) ∈ r.transcript core ops → op.isCallback = true →
        ∃ a, reply = .ok a ∧ (a.worked = true → a.fault = none)) ∧
      (r.run core ops).scheduler.faults =
        r.scheduler.faults + (r.transcript core ops).countP fun entry => Reply.isFaulty entry.2) ∧
    (∀ (core : Core σ) (clock : Clock σ) (r q : Rig σ) (report : TickReport),
      Scheduler.tick core clock r = .ok report q → report.fault.isSome = true →
      q.machine.session.isRunning = true ∧ ∃ since ∈ (RigOp.tick clock).readings r,
        ∀ (ops : List (RigOp σ)) (later : Clock σ) (now : Duration),
          (∀ t ∈ q.readings core ops, t.nanos < since.nanos + r.scheduler.cadence.interval.nanos) →
          now ∈ (RigOp.tick later).readings (q.run core ops) →
          since.nanos + r.scheduler.cadence.interval.nanos ≤ now.nanos →
          (q.run core ops).stepCalls core later = 1) ∧
    ∀ (h : HostLoop σ) (fuel : Nat) (r q : Rig σ) (stats : LoopStats),
      h.run fuel r = .ok (some stats) q →
      stats.steps = (h.calls fuel r).countP Exchange.tookStep ∧ stats.paints = h.shown fuel r ∧
        q.scheduler.faults = r.scheduler.faults + stats.faults := by
  refine ⟨Rig.run_contained, fun core clock r q report did faulty => ?_, fun h _ _ _ _ => h.run_counts⟩
  obtain ⟨running, since, reads, rearmed⟩ := Scheduler.tick_faulty core clock did faulty
  exact ⟨running, since, reads, fun ops _ _ early => Rig.run_rearmed core ops q rearmed early⟩

/-- A core that meets given faults, and panics whenever it is to show its memory. -/
def blindCore : Core (List (Option Fault)) := { Core.faulty with memory := throw .other }

/-- A loop on this core, until there are no more faults to meet. -/
def blindLoop : HostLoop (List (Option Fault)) where
  core := blindCore
  clock := Rig.clockAt .zero
  renderer := ⟨fun _ _ _ => Act.meet (.ok ()) .error⟩
  input := .silent
  stopRequested := List.isEmpty
  refreshInterval := .ofNanos 16

/-- A session that runs, on a core that is to fail, to step and to panic. -/
def blindStart (interval : Duration) : Rig (List (Option Fault)) :=
  Rig.run blindCore [.session (.loadRom .empty)]
    ⟨.fresh blindCore .packed [none, none, none, some (.failure ⟨["out of memory"]⟩), none, none,
      some (.panic .other)], .fresh ⟨interval, .frame⟩⟩

theorem faults_contained_blindLoop :
    (∃ report q, Scheduler.tick blindCore (Rig.clockAt (.ofNanos 7)) (blindStart (.ofNanos 20)) =
        .ok report q ∧ report.fault = some "out of memory" ∧ q.machine.session.isRunning = true ∧
        (q.run blindCore [.tick (Rig.clockAt (.ofNanos 12)), .refresh blindLoop.renderer]).scheduler.faults = 2 ∧
        (q.run blindCore [.tick (Rig.clockAt (.ofNanos 12)), .refresh blindLoop.renderer]).stepCalls blindCore
          (Rig.clockAt (.ofNanos 27)) = 1) ∧
      ∃ q, blindLoop.run 9 (blindStart .zero) = .ok (some ⟨3, 1, 0, 3⟩) q ∧
        1 = (blindLoop.calls 9 (blindStart .zero)).countP Exchange.tookStep ∧
        0 = blindLoop.shown 9 (blindStart .zero) ∧ q.scheduler.faults = 3 := by
  obtain ⟨runs, ticks, loops⟩ := @faults_contained (List (Option Fault))
  have failed : (Scheduler.tick blindCore (Rig.clockAt (.ofNanos 7))).answer (blindStart (.ofNanos 20)) =
      .ok ⟨false, some (.ofNanos 20), some "out of memory"⟩ := rfl
  have did := Act.eq_of_answer failed
  obtain ⟨running, since, reads, steps⟩ := ticks _ _ _ _ _ did rfl
  obtain rfl : since = .ofNanos 7 := List.mem_singleton.mp reads
  refine ⟨⟨_, _, did, rfl, running, ?_, ?_⟩, ?_⟩
  · have tells : ∀ op ∈ [RigOp.tick (Rig.clockAt (.ofNanos 12)), .refresh blindLoop.renderer], op.Tells := by
      simp only [List.forall_mem_cons]
      exact ⟨fun w => ⟨_, w, rfl⟩, trivial, nofun⟩
    rw [(runs blindCore _ _ tells).2]
    decide +kernel
  · refine steps _ (Rig.clockAt (.ofNanos 27)) (.ofNanos 27) ?_ ?_ ?_
    · decide +kernel
    · decide +kernel
    · decide
  · have ran : (blindLoop.run 9).answer (blindStart .zero) = .ok (some ⟨3, 1, 0, 3⟩) := by decide +kernel
    have did := Act.eq_of_answer ran
    obtain ⟨taken, shown, counted⟩ := loops _ _ _ _ _ did
    exact ⟨_, did, taken, shown, counted⟩

end EmulatorHost
