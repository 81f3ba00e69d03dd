import EmulatorHost.Host.Loop
import EmulatorHost.Proofs.Scheduler.Effect
import EmulatorHost.Proofs.Session.Phases
import EmulatorHost.Proofs.Session.Reachable
import EmulatorHost.Time.ManualClock

/-!
# Loops on a clock moved by hand

* `HostLoop.Timed`: nothing but the loop's own waits and the steps of the core moves the clock, and a step
  moves it by a fixed span.
* **`HostLoop.Timed.act_time`**: an operation that only gives input and steps takes so much for each step.
* `Rig.Dwells`: no time passes and no step is taken; **`HostLoop.Timed.drain_dwells`**.
* **`HostLoop.Timed.tick_due`**: what a tick does when a step is due.
-/

namespace EmulatorHost

variable {σ : Type}

/-- A loop whose clock is a part of the world, moved by hand. Only waits and steps of the core move it: a step
by `cost`, however it ends, if the sum is a time at all. The core takes its input without a panic. -/
structure HostLoop.Timed (h : HostLoop σ) (part : σ → ManualClock) (put : ManualClock → σ → σ)
    (cost : Duration) : Prop where
  part_put (c : ManualClock) (w : σ) : part (put c w) = c
  clock : h.clock = ⟨ManualClock.clock.now.within part put,
    fun span => (ManualClock.clock.sleep span).within part put⟩
  step (w : σ) : (part w).now.nanos + cost.nanos < Duration.limit →
    (part (h.core.step.after w)).now.nanos = (part w).now.nanos + cost.nanos
  updateKey (input : KeyInput) (w : σ) :
    ∃ v, h.core.updateKey input w = .ok () v ∧ part v = part w
  memory : Act.Keeps part h.core.memory
  paint (picture : ByteArray) (width height : Nat) : Act.Keeps part (h.renderer.paint picture width height)
  poll : Act.Keeps part h.input.poll

namespace HostLoop.Timed

variable {h : HostLoop σ} {part : σ → ManualClock} {put : ManualClock → σ → σ} {cost : Duration}

/-! ## Reading the clock -/

section Clock

variable (timed : h.Timed part put cost)

include timed

theorem now_apply (w : σ) : h.clock.now w = .ok (part w).now (put (part w) w) := by
  rw [timed.clock]
  rfl

theorem now_keeps : Act.Keeps part h.clock.now := by
  intro w
  rw [Act.after_of_ok (timed.now_apply w), timed.part_put]

theorem sleep_apply {span : Duration} {w : σ} {t : Duration} (fits : (part w).now.add? span = some t) :
    ∃ v, h.clock.sleep span w = .ok () v ∧ (part v).now = t := by
  refine ⟨put ⟨t⟩ w, ?_, by rw [timed.part_put]⟩
  rw [timed.clock]
  change Act.within part put (ManualClock.advance span) w = _
  have advance : ManualClock.advance span (part w) = .ok () ⟨t⟩ := by
    change (Act.ofExcept ((part w).now.after span) >>= fun t => set (⟨t⟩ : ManualClock) :
      Act ManualClock Unit) (part w) = _
    rw [Duration.after, fits]
    rfl
  rw [Act.within, advance]

end Clock

/-! ## Operations -/

section Operations

variable (timed : h.Timed part put cost)

/-- The law of a traced world whose clock stood at `start` before its calls: as long as they only give input
and step, none but a step could panic, and each step took its time. -/
def Law (part : σ → ManualClock) (cost : Duration) (start : Nat) (w : Traced σ) : Prop :=
  (∀ x ∈ w.2, x.isInput = true) → KeysReturn w.2 ∧
    (start + cost.nanos * w.2.countP Exchange.isStep < Duration.limit →
      (part w.1).now.nanos = start + cost.nanos * w.2.countP Exchange.isStep)

include timed

theorem traced_law (start : Nat) : Core.Agrees (fun w v => w = v ∧ Law part cost start w) h.core.traced
    h.core.traced where
  reset := by
    rintro w v ⟨rfl, -⟩
    refine ⟨rfl, rfl, fun inputs => ?_⟩
    rw [Core.traced, Core.noting, Act.after_noting] at inputs
    cases inputs _ (List.mem_append_right _ (List.mem_singleton_self _))
  load rom := by
    rintro w v ⟨rfl, -⟩
    refine ⟨rfl, rfl, fun inputs => ?_⟩
    rw [Core.traced, Core.noting, Act.after_noting] at inputs
    cases inputs _ (List.mem_append_right _ (List.mem_singleton_self _))
  step := by
    rintro w v ⟨rfl, law⟩
    refine ⟨rfl, rfl, ?_⟩
    rw [Core.traced, Core.noting, Act.after_noting]
    intro inputs
    obtain ⟨returns, time⟩ := law fun x hx => inputs x (List.mem_append_left _ hx)
    refine ⟨fun input p hx => ?_, fun fits => ?_⟩
    · rcases List.mem_append.mp hx with hx | hx
      · exact returns input p hx
      · simp at hx
    · have count : (w.2 ++ [Exchange.step (h.core.step.answer w.1)]).countP Exchange.isStep =
          w.2.countP Exchange.isStep + 1 := by simp [Exchange.isStep]
      rw [count, Nat.mul_add, Nat.mul_one] at fits ⊢
      have before := time (by omega)
      rw [timed.step w.1 (by omega), before]
      omega
  updateKey input := by
    rintro w v ⟨rfl, law⟩
    refine ⟨rfl, rfl, ?_⟩
    rw [Core.traced, Core.noting, Act.after_noting]
    intro inputs
    obtain ⟨returns, time⟩ := law fun x hx => inputs x (List.mem_append_left _ hx)
    obtain ⟨u, told, same⟩ := timed.updateKey input w.1
    rw [Act.answer_of_ok told, Act.after_of_ok told]
    refine ⟨fun input p hx => ?_, fun fits => ?_⟩
    · rcases List.mem_append.mp hx with hx | hx
      · exact returns input p hx
      · simp at hx
    · have count : (w.2 ++ [Exchange.updateKey input (.ok ())]).countP Exchange.isStep =
          w.2.countP Exchange.isStep := by simp [Exchange.isStep]
      rw [count] at fits ⊢
      rw [same]
      exact time fits
  memory := by
    rintro w v ⟨rfl, law⟩
    refine ⟨rfl, rfl, ?_⟩
    rw [Core.traced, Core.noting, Act.after_aside]
    intro inputs
    obtain ⟨returns, time⟩ := law inputs
    refine ⟨returns, fun fits => ?_⟩
    rw [timed.memory]
    exact time fits

/-- **An operation that only gives input and steps takes the cost of its steps**, and the core takes its
input. -/
theorem act_time (op : Op) (m : Machine σ) (inputs : ∀ x ∈ m.calls h.core [op], x.isInput = true) :
    KeysReturn (m.calls h.core [op]) ∧
      ((part m.world).now.nanos + cost.nanos * (m.calls h.core [op]).countP Exchange.isStep < Duration.limit →
        (part ((op.act h.core).after m).world).now.nanos =
          (part m.world).now.nanos + cost.nanos * (m.calls h.core [op]).countP Exchange.isStep) := by
  have start : Law part cost (part m.world).now.nanos m.traced.world := fun _ => ⟨nofun, fun _ => rfl⟩
  have like : Machine.Like (fun w v => w = v ∧ Law part cost (part m.world).now.nanos w) Eq m.traced m.traced :=
    ⟨rfl, ⟨rfl, start⟩, rfl⟩
  have law := (Op.act_like journal_continues (timed.traced_law _) like op).2.world.2
  have world : ((op.act h.core.traced).after m.traced).world.1 = ((op.act h.core).after m).world :=
    congrArg Machine.world (Machine.run_traced h.core [op] m.traced)
  rw [← world]
  exact law inputs

end Operations

end HostLoop.Timed

/-! ## While no time passes -/

/-- From one rig to another no step is taken, and pacing and phase stay as they are. -/
structure Rig.Idles (r q : Rig σ) : Prop where
  phase : q.machine.session.phase = r.machine.session.phase
  steps : q.machine.session.steps = r.machine.session.steps
  reachable : r.machine.session.Reachable → q.machine.session.Reachable
  cadence : q.scheduler.cadence = r.scheduler.cadence
  lastStep : q.scheduler.lastStep = r.scheduler.lastStep
  stopped : q.scheduler.stopped = r.scheduler.stopped

/-- From one rig to another no time passes either. -/
structure Rig.Dwells (part : σ → ManualClock) (r q : Rig σ) : Prop extends Rig.Idles r q where
  time : part q.machine.world = part r.machine.world

section Idling

variable {part : σ → ManualClock} {r q p : Rig σ}

theorem Rig.Idles.trans (h : Rig.Idles r q) (h' : Rig.Idles q p) : Rig.Idles r p where
  phase := h'.phase.trans h.phase
  steps := h'.steps.trans h.steps
  reachable := h'.reachable ∘ h.reachable
  cadence := h'.cadence.trans h.cadence
  lastStep := h'.lastStep.trans h.lastStep
  stopped := h'.stopped.trans h.stopped

theorem Rig.Dwells.trans (h : Rig.Dwells part r q) (h' : Rig.Dwells part q p) : Rig.Dwells part r p :=
  ⟨h.toIdles.trans h'.toIdles, h'.time.trans h.time⟩

theorem Rig.Idles.of_emulation {τ : Type} {f : σ → τ} (h : q.emulation f = r.emulation f) :
    Rig.Idles r q where
  phase := congrArg (fun e => e.session.phase) h
  steps := congrArg (fun e => e.session.steps) h
  reachable reachable := by
    have session : q.machine.session = r.machine.session := congrArg Emulation.session h
    rw [session]
    exact reachable
  cadence := congrArg Emulation.cadence h
  lastStep := congrArg Emulation.lastStep h
  stopped := congrArg Emulation.stopped h

theorem Rig.Dwells.of_emulation (h : q.emulation part = r.emulation part) : Rig.Dwells part r q :=
  ⟨.of_emulation h, congrArg Emulation.world h⟩

end Idling

namespace HostLoop.Timed

variable {h : HostLoop σ} {part : σ → ManualClock} {put : ManualClock → σ → σ} {cost : Duration}
  (timed : h.Timed part put cost)

include timed

theorem refresh_dwells : Act.Moves (Rig.Dwells part) (Scheduler.refresh h.core h.renderer) :=
  fun r => .of_emulation (Rig.refresh_keeps timed.memory timed.paint r)

theorem apply_dwells (e : ButtonEvent) :
    Act.Moves (Rig.Dwells part) (Rig.onMachine (Session.apply h.core e)) := by
  intro r
  have performs := Op.performs h.core (.apply e) r.machine
  have left : ((Op.apply e).act h.core).after r.machine = (Session.apply h.core e).after r.machine := by
    rw [Op.act, Act.after_map]
  have spent := timed.act_time (.apply e) r.machine
  rw [left] at performs spent
  rw [Rig.onMachine, Act.after_within]
  generalize (Session.apply h.core e).after r.machine = m at performs spent
  generalize r.machine.calls h.core [.apply e] = xs at performs spent
  generalize ((Op.apply e).act h.core).answer r.machine = o at performs
  -- the event is dropped, or given to the core without a step
  obtain ⟨inputs, count, phase, steps⟩ : (∀ x ∈ xs, x.isInput = true) ∧ xs.countP Exchange.isStep = 0 ∧
      m.session.phase = r.machine.session.phase ∧ m.session.steps = r.machine.session.steps := by
    obtain ⟨session, world, journal⟩ := m
    cases performs with
    | dropped => exact ⟨fun _ hx => absurd hx List.not_mem_nil, rfl, rfl, rfl⟩
    | applied live applies =>
      obtain ⟨phase, -, inputs⟩ := applies.inputs
      obtain ⟨-, steps, -, count⟩ := applies.frame
      exact ⟨inputs, count, phase, steps⟩
  have still := (spent inputs).2
  rw [count, Nat.mul_zero, Nat.add_zero] at still
  refine ⟨⟨phase, steps, fun reachable => reachable.next performs, rfl, rfl, rfl⟩, ?_⟩
  have now : (part m.world).now = (part r.machine.world).now :=
    Duration.ext (still (part r.machine.world).now.lt_limit)
  exact congrArg ManualClock.mk now

/-- **Input takes no time and no step.** -/
theorem drain_dwells (fuel : Nat) : Act.Moves (Rig.Dwells part) (h.drain fuel) := by
  induction fuel with
  | zero => exact fun r => .of_emulation rfl
  | succ fuel ih =>
    unfold HostLoop.drain
    refine .andThen id .trans (fun r => .of_emulation (Rig.call_keeps timed.poll r)) fun event => ?_
    cases event with
    | none => exact fun r => .of_emulation rfl
    | some e => exact .andThen id .trans (timed.apply_dwells e) fun _ => ih

/-! ## Ticks -/

omit timed in
theorem calls_tick {core : Core σ} {clock : Clock σ} {r : Rig σ} {now : Duration} {v : σ}
    (awake : r.scheduler.stopped = false) (read : clock.now r.machine.world = .ok now v)
    (attempts : (r.inWorld v).attempts now = true) :
    r.calls core [.tick clock] = (r.inWorld v).machine.calls core [.step] := by
  have reading : clock.aside.now r.traced.machine.world = .ok now (v, []) :=
    (clock.now.projects_aside [] _).trans (congrArg (Act.view (·, [])) read)
  have kept : Act.Keeps Prod.snd (clock.aside : Clock (Traced σ)).now := clock.now.aside_keeps
  unfold Rig.calls Machine.calls
  change (((RigOp.tick clock).aside.act core.traced).after r.traced).machine.world.2 =
    ((Op.step.act core.traced).after (r.inWorld v).machine.traced).world.2
  rw [RigOp.aside, RigOp.act, Act.after_map, Scheduler.tick_eq, Op.act, Act.after_map,
    Scheduler.after_tickBy (r := r.traced) _ _ awake reading]
  rw [Rig.inWorld_world, kept, Rig.paced]
  change (ite ((r.inWorld v).attempts now = true) _ _ : Rig (Traced σ)).machine.world.2 = _
  rw [if_pos attempts, Rig.attempted_world]
  rfl

end HostLoop.Timed

/-- From one rig to another one step was taken: it cost its time, and pacing goes on from its start. -/
structure Rig.Ticked (part : σ → ManualClock) (cost : Duration) (r q : Rig σ) : Prop where
  time : (part q.machine.world).now.nanos = (part r.machine.world).now.nanos + cost.nanos
  phase : q.machine.session.phase = r.machine.session.phase
  steps : q.machine.session.steps.toNat = r.machine.session.steps.toNat + 1
  reachable : q.machine.session.Reachable
  cadence : q.scheduler.cadence = r.scheduler.cadence
  lastStep : q.scheduler.lastStep = some (part r.machine.world).now
  stopped : q.scheduler.stopped = false

namespace HostLoop.Timed

variable {h : HostLoop σ} {part : σ → ManualClock} {put : ManualClock → σ → σ} {cost : Duration}
  (timed : h.Timed part put cost) {r : Rig σ}

include timed

/-- **When a step is due, a tick takes it**: the core's step is called once, and the tick asks to be called
again when the rest of the interval is over. -/
theorem tick_due (running : r.machine.session.isRunning = true) (reachable : r.machine.session.Reachable)
    (awake : r.scheduler.stopped = false) (due : r.scheduler.isDue (part r.machine.world).now = true)
    (room : r.machine.session.steps.toNat + 1 < UInt64.size)
    (fits : (part r.machine.world).now.nanos + cost.nanos < Duration.limit) :
    (r.calls h.core [.tick h.clock]).countP Exchange.isStep = 1 ∧
      r.Ticked part cost ((Scheduler.tick h.core h.clock).after r) ∧
      ∃ report delay, (Scheduler.tick h.core h.clock).answer r = .ok report ∧ report.delay = some delay ∧
        delay.nanos = r.scheduler.cadence.interval.nanos - cost.nanos := by
  have read := timed.now_apply r.machine.world
  have same : part (put (part r.machine.world) r.machine.world) = part r.machine.world := timed.part_put _ _
  generalize put (part r.machine.world) r.machine.world = v at read same
  have attempts : (r.inWorld v).attempts (part r.machine.world).now = true := by
    rw [Rig.attempts, Bool.and_eq_true]
    exact ⟨running, due⟩
  have paced : (r.inWorld v).paced (Session.step h.core) (part r.machine.world).now =
      (r.inWorld v).attempted (Session.step h.core) (part r.machine.world).now := if_pos attempts
  -- what the step does to the core and to the session
  have performs := Op.performs h.core .step (r.inWorld v).machine
  have spent := timed.act_time .step (r.inWorld v).machine
  rw [Op.act, Act.after_map] at performs spent
  have steps := performs.steps_of_running running
  obtain ⟨phase, -, inputs⟩ := steps.inputs
  obtain ⟨returns, spent⟩ := spent inputs
  obtain ⟨count, counted⟩ := steps.once reachable returns room
  have time : (part ((Session.step h.core).after (r.inWorld v).machine).world).now.nanos =
      (part r.machine.world).now.nanos + cost.nanos := by
    rw [count, Nat.mul_one, Rig.inWorld_world, same] at spent
    exact spent fits
  refine ⟨by rw [calls_tick awake read attempts, count], ?_, ?_⟩
  · rw [Scheduler.tick_eq, Scheduler.after_tickBy _ _ awake read, paced]
    refine ⟨?_, ?_, ?_, ?_, ?_, ?_, ?_⟩
    · rw [Rig.inWorld_world, timed.now_keeps, Rig.attempted_world, time]
    · rw [Rig.inWorld_session, Rig.attempted_session, phase, Rig.inWorld_session]
    · rw [Rig.inWorld_session, Rig.attempted_session, counted, Rig.inWorld_session]
    · rw [Rig.inWorld_session, Rig.attempted_session]
      exact reachable.next performs
    · rw [Rig.inWorld_scheduler, Rig.attempted_cadence, Rig.inWorld_scheduler]
    · rw [Rig.inWorld_scheduler, Rig.attempted_lastStep]
    · rw [Rig.inWorld_scheduler, Rig.attempted_stopped, Rig.inWorld_scheduler, awake]
  · have again := Act.answer_of_ok (timed.now_apply ((r.inWorld v).paced (Session.step h.core)
      (part r.machine.world).now).machine.world)
    refine ⟨_, _, Scheduler.answer_tickBy _ _ awake read again, TickReport.of_delay _ _, ?_⟩
    have reference : (r.inWorld v).reference (part r.machine.world).now = (part r.machine.world).now := by
      rw [Rig.reference, Rig.inWorld_scheduler, due]
      simp
    rw [reference, paced, Rig.attempted_world, Duration.sub_nanos, Duration.sub_nanos, time,
      Nat.add_sub_cancel_left]

omit timed in
theorem ticked_dwells {q p : Rig σ} (ticked : Rig.Ticked part cost r q) (dwells : Rig.Dwells part q p) :
    Rig.Ticked part cost r p where
  time := by rw [dwells.time, ticked.time]
  phase := dwells.phase.trans ticked.phase
  steps := by rw [dwells.steps, ticked.steps]
  reachable := dwells.reachable ticked.reachable
  cadence := dwells.cadence.trans ticked.cadence
  lastStep := dwells.lastStep.trans ticked.lastStep
  stopped := dwells.stopped.trans ticked.stopped

theorem reading (r : Rig σ) :
    ∃ q, Rig.call h.clock.now r = .ok (part r.machine.world).now q ∧ Rig.Dwells part r q := by
  refine ⟨r.inWorld (put (part r.machine.world) r.machine.world), ?_, ?_⟩
  · rw [Rig.call_apply, timed.now_apply]
  · exact ⟨.of_emulation (f := fun _ => ()) rfl, timed.part_put _ _⟩

/-- **A tick turn that takes a step** arms the timer for one period after its start. -/
theorem tickTurn_due (running : r.machine.session.isRunning = true)
    (reachable : r.machine.session.Reachable) (awake : r.scheduler.stopped = false)
    (due : r.scheduler.isDue (part r.machine.world).now = true)
    (room : r.machine.session.steps.toNat + 1 < UInt64.size)
    (fits : (part r.machine.world).now.nanos +
      (cost.nanos + (r.scheduler.cadence.interval.nanos - cost.nanos)) < Duration.limit) (s : LoopState) :
    ∃ s' q, h.tickTurn s r = .ok (.goOn s') q ∧ Rig.Ticked part cost r q ∧
      s'.nextTick.nanos = (part r.machine.world).now.nanos +
        (cost.nanos + (r.scheduler.cadence.interval.nanos - cost.nanos)) ∧
      s'.nextRefresh = s.nextRefresh := by
  obtain ⟨-, ticked, report, delay, answer, asks, rest⟩ :=
    timed.tick_due running reachable awake due room (by omega)
  have tick := Act.eq_of_answer answer
  generalize (Scheduler.tick h.core h.clock).after r = q at ticked tick
  obtain ⟨p, read, dwells⟩ := timed.reading q
  have sum : ∃ next, (part q.machine.world).now.add? delay = some next ∧
      next.nanos = (part r.machine.world).now.nanos +
        (cost.nanos + (r.scheduler.cadence.interval.nanos - cost.nanos)) := by
    refine ⟨⟨_, fits⟩, ?_, rfl⟩
    rw [Duration.add?_eq_some_iff, ticked.time, rest]
    dsimp only
    omega
  obtain ⟨next, sum, due⟩ := sum
  refine ⟨{ s with stats := s.stats.addTick report, nextTick := next }, p, ?_,
    ticked_dwells ticked dwells, due, rfl⟩
  unfold HostLoop.tickTurn
  rw [Act.bind_apply, tick]
  dsimp only
  rw [asks]
  dsimp only
  rw [Act.bind_apply, read]
  dsimp only
  rw [Duration.after, sum]
  rfl

end HostLoop.Timed

end EmulatorHost
