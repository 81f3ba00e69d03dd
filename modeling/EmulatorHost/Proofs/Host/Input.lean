import EmulatorHost.Proofs.Host.View
import EmulatorHost.Proofs.Host.Watched
import EmulatorHost.Proofs.Scheduler.Faults
import EmulatorHost.Time.ManualClock
import Mathlib.Data.List.ReduceOption

/-!
# The input of a host loop

* `HostLoop.heard`: the loop with the answers of its input and the calls on its core written down; `Hearing`.
* `HostLoop.tick_cases`: a tick takes one step, with all that a step does, or leaves session and core alone.
* `Hearing.Heeds`: a controller that is what the input so far made of it.
* **`HostLoop.tick_tells`**: if a tick attempts a step, it tells the core this controller.
* **`HostLoop.drain_ends`**: draining the input applies every event it yields, up to the first answer without one.
* `HostLoop.Hears`: an account in which no input was late, lost or repeated; `HostLoop.tallies_hears`.
* **`HostLoop.run_heeds_input`**: every step is told the input up to the end of the drain before its tick.
-/

namespace EmulatorHost

variable {σ : Type}

/-- What a call tells the core about input. -/
def Exchange.told? : Exchange → Option KeyInput
  | updateKey input _ => some input
  | _ => none

/-! ## Input that is written down -/

/-- A world with the answers that polls for input had beside it, the oldest first. -/
abbrev Polled (σ : Type) := σ × List (Option ButtonEvent)

namespace HostLoop

/-- One answer more, if the poll had one. -/
def noteAnswer (outcome : Except Panic (Option ButtonEvent)) (answers : List (Option ButtonEvent)) :
    List (Option ButtonEvent) := answers ++ outcome.toOption.toList

/-- The loop that writes down the answers of its input. -/
def polled (h : HostLoop σ) : HostLoop (Polled σ) :=
  { h.aside with input := ⟨h.input.poll.noting noteAnswer⟩ }

end HostLoop

/-- The loop that writes down the answers of its input, and the calls on its core. -/
def HostLoop.heard (h : HostLoop σ) : HostLoop (Traced (Polled σ)) := h.polled.traced

/-- A rig whose input has not been polled, and whose core has not been called yet. -/
def Rig.heard (r : Rig σ) : Rig (Traced (Polled σ)) := (r.view (·, [])).traced

/-- The rig without what was written down. -/
def Rig.plain (r : Rig (Traced (Polled σ))) : Rig σ := (r.view Prod.fst).view Prod.fst

/-- What is heard of a rig: its session, the calls on its core, and the answers that polls for input had. -/
@[ext]
structure Hearing where
  session : Session
  calls : List Exchange
  answers : List (Option ButtonEvent)

namespace Hearing

/-- The events that the input yielded, the first one first. -/
def events (x : Hearing) : List ButtonEvent := x.answers.reduceOption

/-- What the core was told about input, whatever came of it. -/
def told (x : Hearing) : List KeyInput := x.calls.filterMap Exchange.told?

/-- After one more poll. -/
def poll (event : Option ButtonEvent) (x : Hearing) : Hearing := { x with answers := x.answers ++ [event] }

/-- After a live event, with what is recorded then. -/
def apply (e : ButtonEvent) (tape : Option Recorder) (x : Hearing) : Hearing :=
  { x with session := { x.session with controller := x.session.controller.apply e, recorder := tape } }

end Hearing

/-- What is heard of a rig. -/
def Rig.hearing (r : Rig (Traced (Polled σ))) : Hearing :=
  ⟨r.machine.session, r.machine.world.2, r.machine.world.1.2⟩

section Erasure

namespace HostLoop

variable (h : HostLoop σ)

theorem polled_agrees : HostLoop.Corresponds (fun w v => w.1 = v) h.polled h :=
  { h.aside_agrees with poll := fun hw => hw ▸ (h.input.poll.noting_fst noteAnswer _).agrees }

theorem heard_run (fuel : Nat) (r : Rig σ) :
    (h.heard.watchedRun fuel).answer r.heard.watched = (h.run fuel).answer r ∧
      ((h.heard.watchedRun fuel).after r.heard.watched).1.plain = (h.run fuel).after r := by
  have of : Of r.heard.watched r.heard := rfl
  obtain ⟨answer, after⟩ := h.heard.watchedRun_of fuel of
  have untraced : Act.Projects (Rig.view Prod.fst) (h.heard.run fuel) (h.polled.run fuel) r.heard :=
    run_view h.polled.traced_agrees fuel r.heard
  have unpolled := run_view h.polled_agrees fuel (r.heard.view Prod.fst)
  rw [answer, Rig.plain, after, ← untraced.answer_eq, ← untraced.after_eq, ← unpolled.answer_eq,
    ← unpolled.after_eq]
  exact ⟨rfl, rfl⟩

end HostLoop

end Erasure

/-! ## What is not heard -/

section Quiet

/-- What is written down of a world. -/
def Polled.record (w : Traced (Polled σ)) : List Exchange × List (Option ButtonEvent) :=
  (w.2, w.1.2)

theorem Rig.hearing_of_emulation {r q : Rig (Traced (Polled σ))}
    (same : q.emulation Polled.record = r.emulation Polled.record) : q.hearing = r.hearing :=
  congrArg (fun e => (⟨e.session, e.world.1, e.world.2⟩ : Hearing)) same

theorem Polled.record_keeps {α : Type} (x : Act σ α) : Act.Keeps record (x.aside : Act (Polled σ) α).aside := by
  intro w
  rw [Act.after_aside, Act.after_aside]
  rfl

theorem Rig.hearing_call {α : Type} (x : Act σ α) : Act.Keeps hearing (Rig.call (x.aside : Act (Polled σ) α).aside) :=
  fun r => hearing_of_emulation (call_keeps (Polled.record_keeps x) r)

namespace HostLoop

variable (h : HostLoop σ)

/-- **A refresh neither applies nor takes any input**, and tells the core nothing. -/
theorem hearing_refresh : Act.Keeps Rig.hearing (Scheduler.refresh h.heard.core h.heard.renderer) :=
  fun r => Rig.hearing_of_emulation (Rig.refresh_keeps (Polled.record_keeps h.core.memory)
    (fun picture width height => Polled.record_keeps (h.renderer.paint picture width height)) r)

theorem hearing_showIfDue (now : Duration) (s : LoopState) :
    Act.Keeps Rig.hearing (h.heard.showIfDue now s) := by
  unfold showIfDue
  split_ifs
  · refine h.hearing_refresh.andThen fun report => .andThen (fun r => ?_) fun _ => .of_pure _
    cases now.after h.heard.refreshInterval <;> rfl
  · exact .of_pure _

theorem hearing_wait (s : LoopState) : Act.Keeps Rig.hearing (h.heard.wait s) := by
  unfold wait
  refine (Rig.hearing_call h.clock.now).andThen fun now => ?_
  split_ifs
  · exact Rig.hearing_call (h.clock.sleep _)
  · exact .of_pure _

end HostLoop

end Quiet

/-! ## Ticks -/

/-- **A tick takes one step, with all that a step does to the session and to the core**, or it leaves both
alone. -/
theorem HostLoop.tick_cases (h : HostLoop σ) (r : Rig (Traced σ)) :
    let q := (Scheduler.tick h.traced.core h.traced.clock).after r
    let steps := r.stepCalls h.traced.core h.traced.clock
    steps = 0 ∧ q.watch = r.watch ∨ steps = 1 ∧ r.machine.session.isRunning = true ∧
      ∃ xs o t, r.machine.session.Performs .step xs o t ∧ q.watch = (t, r.machine.world.2 ++ xs) := by
  dsimp only
  -- readings of the clock are not written down, so only what is between them counts
  have still (r : Rig (Traced σ)) : (r.inWorld (h.traced.clock.now.after r.machine.world)).watch = r.watch := by
    change (r.machine.session, (h.clock.now.aside.after r.machine.world).2) = _
    rw [Act.after_aside]
    rfl
  cases awake : r.scheduler.stopped with
  | true =>
    refine .inl ⟨Rig.stepCalls_of_stopped _ _ awake, ?_⟩
    rw [Act.after_of_ok (Scheduler.tick_idle _ _ awake)]
  | false =>
    cases read : h.traced.clock.now r.machine.world with
    | error p v =>
      refine .inl ⟨Rig.stepCalls_of_panic _ _ awake read, ?_⟩
      rw [Scheduler.tick_eq, Act.after_of_error (Scheduler.tickBy_of_panic _ _ awake read),
        ← Act.after_of_error read, still]
    | ok now v =>
      have begun : (r.inWorld v).watch = r.watch := by rw [← Act.after_of_ok read, still]
      have same : (r.inWorld v).attempts now = r.attempts now := rfl
      rw [Scheduler.tick_eq, Scheduler.after_tickBy _ _ awake read, Rig.stepCalls_eq _ _ awake read, still,
        Rig.paced, same]
      cases attempts : r.attempts now with
      | false => exact .inl ⟨rfl, begun⟩
      | true =>
        have running : r.machine.session.isRunning = true := (Bool.and_eq_true_iff.mp attempts).1
        obtain ⟨xs, calls, performs⟩ := Op.act_yields h.core .step (r.inWorld v).machine
        rw [Op.act, Act.after_map] at calls performs
        obtain ⟨session, before⟩ := Prod.mk.inj begun
        rw [session] at performs
        rw [before] at calls
        refine .inr ⟨rfl, running, xs, _, _, performs, ?_⟩
        rw [if_pos rfl, Rig.watch, Rig.attempted_session, Rig.attempted_world]
        exact Prod.ext rfl calls

/-! ## Live input in packed delivery -/

namespace Session

variable {s t : Session} {xs : List Exchange} {o : Except Panic Answer}

theorem PlaysDue.of_live {r : Except Panic Unit} (h : PlaysDue s xs r t) (live : s.playback = none) :
    xs = [] ∧ r = .ok () ∧ t = s := by
  have nothing : s.due = .ok ([], s) := by rw [due, live]
  cases h with
  | delivered due =>
    cases nothing.symm.trans due
    exact ⟨forwarded_nil _, rfl, rfl⟩
  | broken due => cases nothing.symm.trans due
  | cut due =>
    have some_due := Except.ok.inj (nothing.symm.trans due)
    simp at some_due

/-- A step that has nothing to play tells the core the controller, and leaves all but the step count alone. -/
theorem Performs.step_live (h : s.Performs .step xs o t) (running : s.isRunning = true)
    (packed : s.delivery = .packed) (live : s.playback = none) :
    xs.filterMap Exchange.told? = [.state s.controller] ∧ ∃ n, t = { s with steps := n } := by
  cases h with
  | stepIgnored paused => cases paused.symm.trans running
  | stepped _ steps =>
    cases steps with
    | cut due => cases (due.of_live live).2.1
    | unannounced due =>
      obtain ⟨rfl, -, rfl⟩ := due.of_live live
      exact ⟨rfl, _, rfl⟩
    | uncounted due =>
      obtain ⟨rfl, -, rfl⟩ := due.of_live live
      exact ⟨by rw [announced, packed]; rfl, _, rfl⟩
    | taken due =>
      obtain ⟨rfl, -, rfl⟩ := due.of_live live
      exact ⟨by rw [announced, packed]; rfl, _, rfl⟩

/-- A live event goes into the controller and the recording, and the core is not told yet. -/
theorem Performs.apply_live {e : ButtonEvent} (h : s.Performs (.apply e) xs o t) (running : s.isRunning = true)
    (packed : s.delivery = .packed) (live : s.playback = none) :
    xs = [] ∧ ∃ r, t = { s with controller := s.controller.apply e, recorder := r } := by
  cases h with
  | dropped _ dead =>
    rw [isLive, running, isPlaying, live] at dead
    cases dead
  | applied _ applies =>
    cases applies with
    | recorded kept =>
      rw [recorded_eq kept]
      exact ⟨by rw [packed]; rfl, _, rfl⟩
    | unrecorded => exact ⟨by rw [packed]; rfl, _, rfl⟩
    | cut single =>
      rw [packed] at single
      cases single

end Session

/-! ## What the controller shows -/

/-- A session runs, delivers packed input and plays no log, and its controller is what the input so far made of
it. -/
structure Hearing.Heeds (start : ControllerState) (x : Hearing) : Prop where
  running : x.session.isRunning = true
  packed : x.session.delivery = .packed
  live : x.session.playback = none
  controller : x.session.controller = start.applyAll x.events

/-- From one moment to another all events that were polled were applied, the last answers being `ends`, and
the core was not told yet. -/
structure Hearing.Drains (start : ControllerState) (ends : List (Option ButtonEvent)) (x y : Hearing) :
    Prop where
  heeds : y.Heeds start
  calls : y.calls = x.calls
  answers : ∃ es : List ButtonEvent, y.answers = x.answers ++ (es.map some ++ ends)

/-- From one moment to another the core was told `inputs`, and no input was polled. -/
structure Hearing.Tells (start : ControllerState) (inputs : List KeyInput) (x y : Hearing) : Prop where
  heeds : y.Heeds start
  answers : y.answers = x.answers
  told : y.told = x.told ++ inputs

namespace Hearing

variable {start : ControllerState} {x y : Hearing}

theorem Heeds.dry (heeds : x.Heeds start) : (x.poll none).Heeds start where
  running := heeds.running
  packed := heeds.packed
  live := heeds.live
  controller := by
    have same : (x.poll none).events = x.events := by simp [List.reduceOption_append, events, poll]
    rw [same]
    exact heeds.controller

theorem Heeds.apply (heeds : x.Heeds start) (e : ButtonEvent) (tape : Option Recorder) :
    ((x.poll (some e)).apply e tape).Heeds start where
  running := heeds.running
  packed := heeds.packed
  live := heeds.live
  controller := by
    have more : ((x.poll (some e)).apply e tape).events = x.events ++ [e] := by
      simp [List.reduceOption_append, events, poll, Hearing.apply]
    rw [more, ControllerState.applyAll_append, ← heeds.controller]
    rfl

theorem Drains.refl (heeds : x.Heeds start) : Drains start [] x x := ⟨heeds, rfl, [], (List.append_nil _).symm⟩

theorem Drains.cons {e : ButtonEvent} {tape : Option Recorder} {ends : List (Option ButtonEvent)}
    (drains : ((x.poll (some e)).apply e tape).Drains start ends y) : x.Drains start ends y where
  heeds := drains.heeds
  calls := drains.calls
  answers := by
    obtain ⟨es, more⟩ := drains.answers
    exact ⟨e :: es, more.trans (List.append_assoc ..)⟩

end Hearing

/-! ## What polls no input -/

section Answers

namespace HostLoop

variable (h : HostLoop σ)

theorem answers_act (op : RigOp σ) :
    Act.Keeps (fun r => r.hearing.answers) ((op.aside : RigOp (Polled σ)).aside.act h.heard.core) := fun r => by
  have untraced := (RigOp.act_view r h.polled.core.traced_projects op.aside.aside_projects).after_eq
  exact (congrArg (·.machine.world.2) untraced).symm.trans (op.act_aside h.core (r.view Prod.fst))

theorem answers_apply (e : ButtonEvent) :
    Act.Keeps (fun r => r.hearing.answers) (Rig.onMachine (Session.apply h.heard.core e)) := fun r => by
  have kept := h.answers_act (.session (.apply e)) r
  rw [RigOp.aside, RigOp.aside, RigOp.act, Act.after_map, Rig.onMachine, Act.after_within, Op.act,
    Act.after_map] at kept
  rw [Rig.onMachine, Act.after_within]
  exact kept

theorem answers_tick : Act.Keeps (fun r => r.hearing.answers) (Scheduler.tick h.heard.core h.heard.clock) :=
  fun r => by
    have kept := h.answers_act (.tick h.clock) r
    rw [RigOp.aside, RigOp.aside, RigOp.act, Act.after_map] at kept
    exact kept

end HostLoop

end Answers

/-! ## What a tick tells the core -/

namespace HostLoop

variable (h : HostLoop σ) {start : ControllerState} {r q : Rig (Traced (Polled σ))}

/-- What is heard of a tick is nothing, or all that is heard of one step. -/
theorem hearing_tick (r : Rig (Traced (Polled σ))) :
    let q := (Scheduler.tick h.heard.core h.heard.clock).after r
    let steps := r.stepCalls h.heard.core h.heard.clock
    steps = 0 ∧ q.hearing = r.hearing ∨ steps = 1 ∧ r.machine.session.isRunning = true ∧
      ∃ xs o t, r.machine.session.Performs .step xs o t ∧
        q.hearing = ⟨t, r.hearing.calls ++ xs, r.hearing.answers⟩ := by
  have answers := h.answers_tick r
  have cases := h.polled.tick_cases r
  unfold heard at answers ⊢
  dsimp only at answers cases ⊢
  generalize (Scheduler.tick h.polled.traced.core h.polled.traced.clock).after r = q at answers cases ⊢
  have heard {t : Session} {xs : List Exchange} (watched : q.watch = (t, xs)) :
      q.hearing = ⟨t, xs, r.hearing.answers⟩ := by
    obtain ⟨rfl, rfl⟩ := Prod.mk.inj watched
    rw [← answers]
    rfl
  exact cases.imp (And.imp_right heard) fun ⟨once, running, xs, o, t, performs, watched⟩ =>
    ⟨once, running, xs, o, t, performs, heard watched⟩

/-- What the tick that begins in a rig is to tell the core: if it attempts a step, what the input so far made
of the controller. -/
def sent (start : ControllerState) (r : Rig (Traced (Polled σ))) : List KeyInput :=
  List.replicate (r.stepCalls h.heard.core h.heard.clock) (.state (start.applyAll r.hearing.events))

/-- **A tick tells the core what all the input so far made of the controller**, if it attempts a step. -/
theorem tick_tells (heeds : r.hearing.Heeds start) :
    r.hearing.Tells start (h.sent start r) ((Scheduler.tick h.heard.core h.heard.clock).after r).hearing := by
  rcases h.hearing_tick r with ⟨none, still⟩ | ⟨once, running, xs, o, t, performs, heard⟩
  · rw [still, sent, none]
    exact ⟨heeds, rfl, (List.append_nil _).symm⟩
  · obtain ⟨told, n, rfl⟩ := performs.step_live running heeds.packed heeds.live
    rw [heard, sent, once]
    refine ⟨⟨heeds.running, heeds.packed, heeds.live, heeds.controller⟩, rfl, ?_⟩
    rw [Hearing.told, List.filterMap_append, told, ← heeds.controller]
    rfl

theorem tickTurn_tells (s : LoopState) :
    Act.Moves (fun r q => r.hearing.Heeds start → r.hearing.Tells start (h.sent start r) q.hearing)
      (h.heard.tickTurn s) := by
  unfold tickTurn
  refine .andThen (S := fun r q => q.hearing = r.hearing) id (fun tells same heeds => same ▸ tells heeds)
    (fun r heeds => h.tick_tells heeds) fun report => ?_
  dsimp only
  cases report.delay with
  | none => exact Act.Keeps.of_pure _
  | some delay =>
    refine Act.Keeps.andThen (Rig.hearing_call h.clock.now) fun now => ?_
    refine .andThen (fun r => ?_) fun next => .of_pure _
    cases now.after delay <;> rfl

/-! ## Draining the input -/

theorem poll_ends (r : Rig (Traced (Polled σ))) : Act.Ends (Rig.call h.heard.input.poll) r
    (fun event q => q.hearing = r.hearing.poll event) fun q => q.hearing = r.hearing := by
  refine .of_within (.of_within ?_)
  change Act.Ends (h.input.poll.noting noteAnswer).aside _ _ _
  unfold Act.Ends Act.aside Act.noting
  cases h.input.poll r.machine.world.1.1 with
  | ok event v => rfl
  | error p v => exact Hearing.ext rfl rfl (List.append_nil _)

theorem hearing_apply (e : ButtonEvent) (running : r.hearing.session.isRunning = true)
    (packed : r.hearing.session.delivery = .packed) (live : r.hearing.session.playback = none) :
    ∃ tape, ((Rig.onMachine (Session.apply h.heard.core e)).after r).hearing = r.hearing.apply e tape := by
  obtain ⟨xs, calls, performs⟩ := Op.act_yields h.polled.core (.apply e) r.machine
  rw [Op.act, Act.after_map] at calls performs
  obtain ⟨rfl, tape, session⟩ := performs.apply_live running packed live
  rw [List.append_nil] at calls
  refine ⟨tape, Hearing.ext ?_ ?_ (h.answers_apply e r)⟩
  · rw [Rig.onMachine, Act.after_within]
    exact session
  · rw [Rig.onMachine, Act.after_within]
    exact calls

/-- **Draining the input applies every event it yields**, in order, and ends with the first answer that there is
none for now. -/
theorem drain_ends (fuel : Nat) (heeds : r.hearing.Heeds start) : Act.Ends (h.heard.drain fuel) r
    (fun dry q => r.hearing.Drains start (if dry then [none] else []) q.hearing)
    fun q => r.hearing.Drains start [] q.hearing := by
  induction fuel generalizing r with
  | zero => exact .of_pure (.refl heeds)
  | succ fuel ih =>
    unfold drain
    refine ((h.poll_ends r).imp (fun _ _ => id) fun q same => ?_).andThen fun event q polled => ?_
    · rw [same]
      exact .refl heeds
    cases event with
    | none =>
      have drains : r.hearing.Drains start [none] q.hearing := by
        rw [polled]
        exact ⟨heeds.dry, rfl, [], rfl⟩
      exact .of_pure drains
    | some e =>
      -- until it is applied, the controller is behind the answers
      obtain ⟨tape, applied⟩ := h.hearing_apply e (r := q) (by rw [polled]; exact heeds.running)
        (by rw [polled]; exact heeds.packed) (by rw [polled]; exact heeds.live)
      rw [polled] at applied
      have one := heeds.apply e tape
      refine ((Act.Ends.of_after (P := fun p => p.hearing = _) applied).imp (fun _ _ => id)
        fun p applied => ?_).andThen fun _ p applied => ?_
      · rw [applied]
        exact .cons (.refl one)
      · rw [← applied] at one
        have more {ends : List (Option ButtonEvent)} {y : Hearing} (drains : p.hearing.Drains start ends y) :
            r.hearing.Drains start ends y := by
          rw [applied] at drains
          exact .cons drains
        exact (ih one).imp (fun _ _ => more) fun _ => more

/-! ## Accounts -/

/-- In an account whose ticks began in `ticks`, the rig in which the `k`-th of them did: its drain has ended,
with the `k`-th answer that there is no event for now, and the ticks before it have told the core what they are
to tell it. -/
structure Begun (start : ControllerState) (ticks : List (Rig (Traced (Polled σ)))) (k : Nat)
    (q : Rig (Traced (Polled σ))) : Prop where
  heeds : q.hearing.Heeds start
  dry : ∃ polled, q.hearing.answers = polled ++ [none] ∧ polled.count none = k
  told : q.hearing.told = (ticks.take k).flatMap (h.sent start)

/-- **An account in which no input was late, lost or repeated.** -/
structure Hears (start : ControllerState) (w : Watched (Traced (Polled σ))) : Prop where
  heeds : w.1.hearing.Heeds start
  dry : w.1.hearing.answers.count none = w.2.ticks.length
  told : w.1.hearing.told = w.2.ticks.flatMap (h.sent start)
  begun (k : Nat) (q : Rig (Traced (Polled σ))) : w.2.ticks[k]? = some q →
    h.Begun start w.2.ticks k q ∧ q.hearing.answers <+: w.1.hearing.answers

variable {h} {w : Watched (Traced (Polled σ))}

theorem count_none_map_some (es : List ButtonEvent) : (es.map some).count none = 0 := by
  rw [List.count_eq_zero]
  simp

theorem Hears.of_hearing (hears : h.Hears start w) (same : q.hearing = w.1.hearing) :
    h.Hears start (q, w.2) where
  heeds := same ▸ hears.heeds
  dry := (congrArg (fun x => x.answers.count none) same).trans hears.dry
  told := (congrArg Hearing.told same).trans hears.told
  begun k p at_k := by
    obtain ⟨begun, before⟩ := hears.begun k p at_k
    exact ⟨begun, same ▸ before⟩

theorem Hears.drained (hears : h.Hears start w) (drains : w.1.hearing.Drains start [] q.hearing) :
    h.Hears start (q, w.2) := by
  obtain ⟨es, answers⟩ := drains.answers
  rw [List.append_nil] at answers
  refine ⟨drains.heeds, ?_, ?_, fun k p at_k => ?_⟩
  · rw [answers, List.count_append, count_none_map_some, hears.dry, Nat.add_zero]
  · rw [Hearing.told, drains.calls]
    exact hears.told
  · obtain ⟨begun, before⟩ := hears.begun k p at_k
    exact ⟨begun, answers ▸ before.trans (List.prefix_append ..)⟩

theorem Hears.ticked {p : Rig (Traced (Polled σ))} (hears : h.Hears start w)
    (drains : w.1.hearing.Drains start [none] q.hearing)
    (tells : q.hearing.Tells start (h.sent start q) p.hearing) :
    h.Hears start (p, ⟨w.2.ticks ++ [q], w.2.refreshes⟩) := by
  obtain ⟨es, answers⟩ := drains.answers
  rw [← List.append_assoc] at answers
  have count : (w.1.hearing.answers ++ es.map some).count none = w.2.ticks.length := by
    rw [List.count_append, count_none_map_some, hears.dry, Nat.add_zero]
  have told : q.hearing.told = w.2.ticks.flatMap (h.sent start) := by
    rw [Hearing.told, drains.calls]
    exact hears.told
  refine ⟨tells.heeds, ?_, ?_, fun k v at_k => ?_⟩
  · rw [tells.answers, answers, List.count_append, count, List.length_append]
    rfl
  · rw [tells.told, told, List.flatMap_append, List.flatMap_singleton]
  · dsimp only at at_k ⊢
    rw [tells.answers]
    rcases Nat.lt_or_ge k w.2.ticks.length with early | late
    · rw [List.getElem?_append_left early] at at_k
      obtain ⟨begun, before⟩ := hears.begun k v at_k
      refine ⟨⟨begun.heeds, begun.dry, ?_⟩, ?_⟩
      · rw [List.take_append_of_le_length (Nat.le_of_lt early)]
        exact begun.told
      · rw [answers, List.append_assoc]
        exact before.trans (List.prefix_append ..)
    · obtain ⟨rfl, rfl⟩ : k = w.2.ticks.length ∧ v = q := by
        rw [List.getElem?_append_right late, List.getElem?_singleton] at at_k
        split_ifs at at_k with zero
        exact ⟨Nat.le_antisymm (Nat.sub_eq_zero_iff_le.mp zero) late, (Option.some.inj at_k).symm⟩
      refine ⟨⟨drains.heeds, ⟨_, answers, count⟩, ?_⟩, List.prefix_rfl⟩
      rw [List.take_left]
      exact told

/-! ## Turns and runs -/

variable (h) in
/-- An action that leaves no input late, lost or repeated. -/
abbrev Attentive (start : ControllerState) {α : Type} (x : Act (Watched (Traced (Polled σ))) α) : Prop :=
  Act.Moves (fun w v => h.Hears start w → h.Hears start v) x

theorem Attentive.of_keeps {α : Type} {x : Act (Rig (Traced (Polled σ))) α} (keeps : Act.Keeps Rig.hearing x) :
    h.Attentive start x.aside := by
  intro w hears
  rw [x.after_aside]
  exact hears.of_hearing (keeps w.1)

variable (h start)

/-- **A tick hears all the input before it, and tells it.** -/
theorem Attentive.of_notedTick (fuel : Nat) (now : Duration) (s : LoopState) :
    h.Attentive start (h.heard.notedTick Account.note fuel now s) := by
  unfold notedTick
  rw [notedDrain_account, notedTickTurn_account]
  split_ifs
  · intro w hears
    have drained := h.drain_ends fuel hears.heeds
    refine Act.Ends.leaves (.andThen (P := fun dry v => ∃ q, v = (q, w.2) ∧
      w.1.hearing.Drains start (if dry then [none] else []) q.hearing) (.of_aside ?_) ?_)
    · exact drained.imp (fun dry q drains => ⟨q, rfl, drains⟩) fun q drains => hears.drained drains
    · rintro dry _ ⟨q, rfl, drains⟩
      cases dry with
      | false => exact .of_pure (hears.drained drains)
      | true =>
        refine .of_map (.of_after ?_)
        change h.Hears start ((h.heard.tickTurn s).aside.after (q, w.2.note .tick q))
        rw [Act.after_aside]
        exact hears.ticked drains (h.tickTurn_tells s q drains.heeds)
  · exact fun _ => id

theorem Attentive.of_notedShow (now : Duration) (s : LoopState) :
    h.Attentive start (h.heard.notedShow Account.note now s) := by
  rw [notedShow_account]
  split_ifs
  · intro w hears
    have begun : h.Hears start (w.1, w.2.note (.refresh now) w.1) :=
      ⟨hears.heeds, hears.dry, hears.told, hears.begun⟩
    exact Attentive.of_keeps (h.hearing_showIfDue now s) _ begun
  · exact fun _ => id

/-- **No turn leaves input late, lost or repeated.** -/
theorem tallies_hears : h.heard.Tallies fun _ w v => h.Hears start w → h.Hears start v where
  refl _ _ := id
  trans first second := second ∘ first
  read := Attentive.of_keeps (Rig.hearing_call h.clock.now)
  look := Attentive.of_keeps fun _ => rfl
  tick := Attentive.of_notedTick h start
  picture := Attentive.of_notedShow h start
  wait s := Attentive.of_keeps (h.hearing_wait s)
  parting _ := Attentive.of_keeps fun _ => rfl

/-- **The input of a host loop is neither late, lost nor repeated.** Take a run over a session that runs,
delivers packed input and plays no log, whatever its parties do and however it ends. The drain before the
`k`-th tick ended with the `k`-th poll that had no event. If the tick attempts a step, it tells the core what
all the events polled up to then made of the controller that the run began with; otherwise it tells nothing, and
either way it takes no input. Before it the core was told what the ticks before it told. All that the core is
told in the run are these states, and what the run leaves in the controller is what all the events ever polled
made of it. Neither a refresh nor a tick without a step takes or applies any input. -/
theorem run_heeds_input (fuel : Nat) (r : Rig σ) (running : r.machine.session.isRunning = true)
    (packed : r.machine.session.delivery = .packed) (live : r.machine.session.playback = none) :
    let start := r.machine.session.controller
    let ran := (h.heard.watchedRun fuel).after r.heard.watched
    let account := ran.2
    let tick := Scheduler.tick h.heard.core h.heard.clock
    let heard := ran.1.hearing
    ((h.heard.watchedRun fuel).answer r.heard.watched = (h.run fuel).answer r ∧
      ran.1.plain = (h.run fuel).after r) ∧
    (∀ k q, account.ticks[k]? = some q →
      (∃ polled, q.hearing.answers = polled ++ [none] ∧ polled.count none = k) ∧
      q.hearing.answers <+: heard.answers ∧ q.hearing.Heeds start ∧
      q.hearing.told = (account.ticks.take k).flatMap (h.sent start) ∧
      q.hearing.Tells start (List.replicate (q.stepCalls h.heard.core h.heard.clock)
        (.state (start.applyAll q.hearing.events))) (tick.after q).hearing) ∧
    heard.answers.count none = account.ticks.length ∧ heard.told = account.ticks.flatMap (h.sent start) ∧
    ((h.run fuel).after r).machine.session.controller = start.applyAll heard.events ∧
    ∀ q, ((Scheduler.refresh h.heard.core h.heard.renderer).after q).hearing = q.hearing ∧
      (q.stepCalls h.heard.core h.heard.clock = 0 → (tick.after q).hearing = q.hearing) := by
  intro start ran account tick heard
  have fresh : h.Hears start r.heard.watched := ⟨⟨running, packed, live, rfl⟩, rfl, rfl, fun _ _ => nofun⟩
  have hears : h.Hears start ran := (h.tallies_hears start).run fuel r.heard.watched fresh
  obtain ⟨answer, plain⟩ := h.heard_run fuel r
  refine ⟨⟨answer, plain⟩, fun k q at_k => ?_, hears.dry, hears.told, ?_, fun q => ⟨h.hearing_refresh q, ?_⟩⟩
  · obtain ⟨begun, before⟩ := hears.begun k q at_k
    exact ⟨begun.dry, before, begun.heeds, begun.told, h.tick_tells begun.heeds⟩
  · rw [← plain]
    exact hears.heeds.controller
  · intro none
    rcases h.hearing_tick q with ⟨-, still⟩ | ⟨once, -⟩
    · exact still
    · rw [none] at once
      cases once

/-- A loop whose input is a script, until that is at its end, and whose core fails to step. Its clock is moved
by waits alone. -/
def scriptedLoop : HostLoop (List (Option ButtonEvent) × ManualClock) where
  core := ⟨return, fun _ => return true, return .error ⟨["out of memory"]⟩, fun _ => return, throw .other, 0,
    .frame⟩
  clock := ⟨ManualClock.clock.now.within Prod.snd fun c w => (w.1, c), fun span =>
    (ManualClock.clock.sleep span).within Prod.snd fun c w => (w.1, c)⟩
  renderer := ⟨fun _ _ _ => return .ok ()⟩
  input := ⟨do
    let (script, clock) ← get
    set (script.tail, clock)
    return script.head?.join⟩
  stopRequested w := w.1.isEmpty
  refreshInterval := .ofNanos 3

/-- A session that runs, with input for two ticks. -/
def scriptedStart : Rig (List (Option ButtonEvent) × ManualClock) :=
  Rig.run scriptedLoop.core [.session (.loadRom .empty)] ⟨.fresh scriptedLoop.core .packed
    ([some (.press .a), none, some (.press .b), some (.release .a), none], ⟨.zero⟩), .fresh ⟨.ofNanos 5, .frame⟩⟩

theorem run_heeds_input_scriptedLoop :
    let session := scriptedStart.machine.session
    let ran := (scriptedLoop.heard.watchedRun 9).after scriptedStart.heard.watched
    let account := ran.2
    let events := [ButtonEvent.press .a, .press .b, .release .a]
    session.isRunning = true ∧ session.delivery = .packed ∧ session.playback = none ∧
      (scriptedLoop.run 9).answer scriptedStart = .ok (some ⟨2, 0, 0, 4⟩) ∧
      ran.1.hearing.told = [.state ⟨1⟩, .state ⟨2⟩] ∧
      account.ticks.flatMap (scriptedLoop.sent session.controller) = [.state ⟨1⟩, .state ⟨2⟩] ∧
      ((scriptedLoop.run 9).after scriptedStart).machine.session.controller =
        session.controller.applyAll events ∧
      ∃ q polled, account.ticks[1]? = some q ∧ q.hearing.answers = polled ++ [none] ∧
        polled.count none = 1 := by
  have running : scriptedStart.machine.session.isRunning = true := rfl
  have packed : scriptedStart.machine.session.delivery = .packed := rfl
  have live : scriptedStart.machine.session.playback = none := rfl
  have returned : (scriptedLoop.run 9).answer scriptedStart = .ok (some ⟨2, 0, 0, 4⟩) := by decide +kernel
  have heeds := scriptedLoop.run_heeds_input 9 scriptedStart running packed live
  obtain ⟨ran, is_ran⟩ : ∃ ran, (scriptedLoop.heard.watchedRun 9).after scriptedStart.heard.watched = ran :=
    ⟨_, rfl⟩
  have told : ran.1.hearing.told = [.state ⟨1⟩, .state ⟨2⟩] := by
    rw [← is_ran]
    decide +kernel
  have yielded : ran.1.hearing.events = [.press .a, .press .b, .release .a] := by
    rw [← is_ran]
    decide +kernel
  have two : ran.2.ticks.length = 2 := by
    rw [← is_ran]
    decide +kernel
  -- from here on it makes no difference which run it was
  dsimp only at heeds ⊢
  rw [is_ran] at heeds ⊢
  obtain ⟨-, ticks, -, sent, left, -⟩ := heeds
  have second : ran.2.ticks[1]? = some ran.2.ticks[1] := List.getElem?_eq_getElem _
  obtain ⟨⟨polled, answers, dry⟩, -⟩ := ticks 1 _ second
  refine ⟨running, packed, live, returned, told, sent.symm.trans told, ?_, _, polled, second, answers, dry⟩
  rw [left, yielded]

end HostLoop

end EmulatorHost
