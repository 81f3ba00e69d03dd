import EmulatorHost.Proofs.Scheduler.Operation
import EmulatorHost.Proofs.Session.Protocol

/-!
# What a host can do to a session

* `Rig.Performs`: a callback of the scheduler steps the session or leaves it alone.
* **`RigOp.performs`**: an operation of a host does one of these.
* **`Rig.calls_protocol`**: whatever a host does, the core is called by the protocol.
-/

namespace EmulatorHost

variable {σ : Type}

/-- What an operation of a host can do to a session: the calls on the core, and the session it leaves. -/
inductive Rig.Performs (s : Session) : RigOp σ → List Exchange → Session → Prop
  | asked {op : Op} {xs : List Exchange} {r : Except Panic Answer} {t : Session}
    (h : s.Performs op xs r t) : Performs s (.session op) xs t
  | ticked (clock : Clock σ) {xs : List Exchange} {r : Except Panic Answer} {t : Session}
    (h : s.Performs .step xs r t) : Performs s (.tick clock) xs t
  | waited (clock : Clock σ) : Performs s (.tick clock) [] s
  | refreshed (renderer : Renderer σ) : Performs s (.refresh renderer) [] s
  | stopped : Performs s .stop [] s

/-! ## Following a callback -/

namespace Rig

/-- What is watched of a rig: the session and the calls so far. -/
def watch (r : Rig (Traced σ)) : Session × List Exchange := (r.machine.session, r.machine.world.2)

/-- An action that steps the session once or leaves it alone. -/
def Paced {α : Type} (x : Act (Rig (Traced σ)) α) : Prop :=
  ∀ r, (x.after r).watch = r.watch ∨ ∃ xs o, r.machine.session.Performs .step xs o
    (x.after r).machine.session ∧ (x.after r).machine.world.2 = r.machine.world.2 ++ xs

section Rules

variable {α β : Type} {x : Act (Rig (Traced σ)) α} {k : α → Act (Rig (Traced σ)) β}

theorem still_call (x : Act σ α) : Act.Keeps watch (Rig.call x.aside) := by
  intro r
  rw [Rig.call, onMachine, Act.after_within, Session.call, Act.after_within, Act.after_aside]
  rfl

theorem Paced.of_keeps (h : Act.Keeps watch x) : Paced x := fun r => .inl (h r)

theorem Paced.keeps_andThen (hx : Act.Keeps watch x) (hk : ∀ a, Paced (k a)) : Paced (x >>= k) := by
  intro r
  have same := hx r
  rcases Act.after_andThen x k r with h | ⟨a, h⟩
  · rw [h]
    exact .inl same
  · rw [h, ← same]
    obtain ⟨session, calls⟩ := Prod.mk.inj same
    rw [← session, ← calls]
    exact hk a _

theorem Paced.andThen_keeps (hx : Paced x) (hk : ∀ a, Act.Keeps watch (k a)) : Paced (x >>= k) := by
  intro r
  rcases Act.after_andThen x k r with h | ⟨a, h⟩
  · rw [h]
    exact hx r
  · have same := hk a (x.after r)
    obtain ⟨session, calls⟩ := Prod.mk.inj same
    rw [h, same, session, calls]
    exact hx r

end Rules

/-! ## Every callback steps the session once or leaves it alone -/

variable (core : Core σ)

theorem step_paced : Paced (onMachine (Session.step core.traced)) := by
  intro r
  rw [onMachine, Act.after_within]
  obtain ⟨xs, hc, hp⟩ := Op.act_yields core .step r.machine
  rw [Op.act, Act.after_map] at hc hp
  exact .inr ⟨xs, _, hp, hc⟩

theorem attempt_paced (now : Duration) : Paced (Scheduler.attempt core.traced now) := by
  unfold Scheduler.attempt
  refine .keeps_andThen (fun _ => rfl) fun _ => .andThen_keeps (fun r => ?_) fun o => ?_
  · rw [Act.after_guarded]
    exact step_paced core r
  · cases o with
    | ok stepped => exact .of_pure _
    | error f => exact .andThen (fun _ => rfl) fun _ => .of_pure _

theorem tick_paced (clock : Clock σ) : Paced (Scheduler.tick core.traced clock.aside) := by
  unfold Scheduler.tick
  refine .keeps_andThen .of_get fun r => ?_
  split_ifs
  · exact .of_keeps (.of_pure _)
  · refine .keeps_andThen (still_call clock.now) fun now => .keeps_andThen .of_get fun r => ?_
    dsimp only
    split_ifs
    all_goals
      refine .andThen_keeps ?_ fun o => ?_
      · first | exact attempt_paced core now | exact .of_keeps (.of_pure _)
      · refine .andThen .of_get fun _ => .andThen (still_call clock.now) fun _ => ?_
        cases o <;> exact .of_pure _

theorem refresh_watch (renderer : Renderer σ) :
    Act.Keeps watch (Scheduler.refresh core.traced renderer.aside) := by
  have kept : Act.Keeps (emulation Prod.snd) (Scheduler.refresh core.traced renderer.aside) :=
    refresh_keeps core.memory.aside_keeps fun picture width height =>
      (renderer.paint picture width height).aside_keeps
  exact fun r => congrArg (fun e => (e.session, e.world)) (kept r)

end Rig

/-- **An operation of a host does one of the things it can do to the session.** -/
theorem RigOp.performs (core : Core σ) (op : RigOp σ) (r : Rig σ) :
    Rig.Performs r.machine.session op (r.calls core [op]) ((op.act core).after r).machine.session := by
  have after : (op.act core).after r = ((op.aside.act core.traced).after r.traced).view Prod.fst :=
    (RigOp.act_view r.traced core.traced_projects op.aside_projects).after_eq
  rw [after]
  change Rig.Performs _ op ((op.aside.act core.traced).after r.traced).machine.world.2
    ((op.aside.act core.traced).after r.traced).machine.session
  cases op with
  | session op =>
    rw [RigOp.aside, RigOp.act, Act.after_map, Rig.onMachine, Act.after_within]
    obtain ⟨xs, hc, hp⟩ := op.act_yields core r.machine.traced
    change ((op.act core.traced).after r.machine.traced).world.2 = xs at hc
    rw [← hc] at hp
    exact .asked hp
  | tick clock =>
    rw [RigOp.aside, RigOp.act, Act.after_map]
    rcases Rig.tick_paced core clock r.traced with h | ⟨xs, o, hp, hc⟩
    · obtain ⟨session, calls⟩ := Prod.mk.inj h
      rw [session, calls]
      exact .waited clock
    · change _ = xs at hc
      rw [hc]
      exact .ticked clock hp
  | refresh renderer =>
    rw [RigOp.aside, RigOp.act, Act.after_map]
    obtain ⟨session, calls⟩ := Prod.mk.inj (Rig.refresh_watch core renderer r.traced)
    rw [session, calls]
    exact .refreshed renderer
  | stop => exact .stopped

namespace Rig

theorem Performs.base {s s' : Session} {op : RigOp σ} {xs : List Exchange} (h : Performs s op xs s') :
    s'.base = s.base := by
  cases h with
  | asked h => exact h.base
  | ticked clock h => exact h.base
  | waited => rfl
  | refreshed => rfl
  | stopped => rfl

theorem Performs.delivery {s s' : Session} {op : RigOp σ} {xs : List Exchange} (h : Performs s op xs s') :
    s'.delivery = s.delivery := by
  cases h with
  | asked h => exact h.delivery
  | ticked clock h => exact h.delivery
  | waited => rfl
  | refreshed => rfl
  | stopped => rfl

end Rig

/-! ## The protocol -/

namespace Rig

variable (core : Core σ)

theorem Performs.keeps {d : Delivery} {s s' : Session} {t xs : List Exchange} {op : RigOp σ}
    (h : Performs s op xs s') (hs : Keeps d s t) : Keeps d s' (t ++ xs) := by
  cases h with
  | asked h => exact h.keeps hs
  | ticked clock h => exact h.keeps hs
  | waited => simpa using hs
  | refreshed => simpa using hs
  | stopped => simpa using hs

theorem run_keeps {d : Delivery} {t : List Exchange} (ops : List (RigOp σ)) (r : Rig σ)
    (h : Keeps d r.machine.session t) :
    Keeps d (r.run core ops).machine.session (t ++ r.calls core ops) := by
  induction ops generalizing r t with
  | nil => simpa using h
  | cons op ops ih =>
    rw [calls_cons, ← List.append_assoc]
    exact ih _ ((op.performs core r).keeps h)

/-- **Whatever a host does, the core is called by the protocol.** It may refuse images, and fail or panic
in any call; the host goes on after every panic. -/
theorem calls_protocol (d : Delivery) (w : σ) (s : Scheduler) (ops : List (RigOp σ)) :
    CallProtocol d (calls core ops ⟨.fresh core d w, s⟩) :=
  (run_keeps core ops ⟨.fresh core d w, s⟩ (.fresh d core.base)).protocol

end Rig

end EmulatorHost
