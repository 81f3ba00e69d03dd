import EmulatorHost.Proofs.Scheduler.Callbacks
import EmulatorHost.Proofs.Session.Calls
import Mathlib.Data.List.Forall2

/-!
# Runs of a rig

* `RigOp`: what a host does with a session and the scheduler that paces it, in any order.
* `Rig.run`: one after the other; the caller goes on after a panic.
* `Rig.calls`: the calls on the core that come of it; **`Rig.calls_append`**: run after run, they add up.
* **`RigOp.act_view`**: what a host does is the same through a view of the world.
* `RigOp.aside`: the same with something beside the world; **`RigOp.act_aside`**: it stays as it was.
-/

namespace EmulatorHost

/-- Something a host does: an operation on the session, or a callback of the scheduler with the clock or
the renderer that it uses. -/
inductive RigOp (σ : Type) where
  | session (op : Op)
  | tick (clock : Clock σ)
  | refresh (renderer : Renderer σ)
  | stop

variable {σ τ : Type}

/-- What a host does. -/
def RigOp.act (core : Core σ) : RigOp σ → Act (Rig σ) Unit
  | session op => (fun _ => ()) <$> Rig.onMachine (op.act core)
  | tick clock => (fun _ => ()) <$> Scheduler.tick core clock
  | refresh renderer => (fun _ => ()) <$> Scheduler.refresh core renderer
  | stop => modify (·.mapScheduler Scheduler.stop)

/-- Whether the session is given a log to play. -/
def RigOp.isPlay : RigOp σ → Bool
  | session (.play _) => true
  | _ => false

/-- Whether the scheduler is stopped. -/
def RigOp.isStop : RigOp σ → Bool
  | stop => true
  | _ => false

/-- The same with something beside the world that clocks and renderers leave alone. -/
def RigOp.aside {κ : Type} : RigOp σ → RigOp (σ × κ)
  | session op => session op
  | tick clock => tick clock.aside
  | refresh renderer => refresh renderer.aside
  | stop => stop

namespace Rig

/-- The rig after some operations, the first one first. -/
def run (core : Core σ) (ops : List (RigOp σ)) (r : Rig σ) : Rig σ :=
  ops.foldl (fun r op => (op.act core).after r) r

@[simp] theorem run_nil (core : Core σ) (r : Rig σ) : run core [] r = r := rfl

@[simp] theorem run_cons (core : Core σ) (op : RigOp σ) (ops : List (RigOp σ)) (r : Rig σ) :
    run core (op :: ops) r = run core ops ((op.act core).after r) := rfl

theorem run_append (core : Core σ) (front back : List (RigOp σ)) (r : Rig σ) :
    run core (front ++ back) r = run core back (run core front r) := List.foldl_append

theorem run_induction {core : Core σ} {P : Rig σ → Prop}
    (keeps : ∀ op r, P r → P (((op : RigOp σ).act core).after r)) (ops : List (RigOp σ)) {r : Rig σ}
    (h : P r) : P (run core ops r) := by
  induction ops generalizing r with
  | nil => exact h
  | cons op ops ih => exact ih (keeps op r h)

/-- A rig whose world is seen through a view. -/
def view (f : σ → τ) (r : Rig σ) : Rig τ := ⟨r.machine.view f, r.scheduler⟩

/-- A rig whose core has not been called yet. -/
def traced (r : Rig σ) : Rig (Traced σ) := r.view (·, [])

/-- The calls that operations make on the core, the first one first. -/
def calls (core : Core σ) (ops : List (RigOp σ)) (r : Rig σ) : List Exchange :=
  (run core.traced (ops.map RigOp.aside) r.traced).machine.world.2

end Rig

/-! ## The same in another world -/

/-- Two rigs with the same session, whose worlds are related by `W`, and whose schedulers and journals are
by `K`. -/
structure Rig.Like (W : σ → τ → Prop) (K : Scheduler × Journal → Scheduler × Journal → Prop) (r : Rig σ)
    (q : Rig τ) : Prop where
  session : r.machine.session = q.machine.session
  world : W r.machine.world q.machine.world
  kept : K (r.scheduler, r.machine.journal) (q.scheduler, q.machine.journal)

/-- Schedulers related by `K` pace alike, and stay related as they attempt steps, meet faults and stop. -/
structure Scheduler.Bond (K : Scheduler × Journal → Scheduler × Journal → Prop) : Prop where
  cadence {s t : Scheduler} {j k : Journal} : K (s, j) (t, k) → s.cadence = t.cadence
  lastStep {s t : Scheduler} {j k : Journal} : K (s, j) (t, k) → s.lastStep = t.lastStep
  stopped {s t : Scheduler} {j k : Journal} : K (s, j) (t, k) → s.stopped = t.stopped
  note {s t : Scheduler} {j k : Journal} (l : JournalLine) :
    K (s, j) (t, k) → K (s, j.push l) (t, k.push l)
  arm {s t : Scheduler} {j k : Journal} (now : Duration) : K (s, j) (t, k) →
    K ({ s with lastStep := some now }, j) ({ t with lastStep := some now }, k)
  fault {s t : Scheduler} {j k : Journal} (text : Nat → String) : K (s, j) (t, k) →
    K ({ s with faults := s.faults + 1 }, j.push ⟨.error, text (s.faults + 1)⟩)
      ({ t with faults := t.faults + 1 }, k.push ⟨.error, text (t.faults + 1)⟩)
  stop {s t : Scheduler} {j k : Journal} : K (s, j) (t, k) → K (s.stop, j) (t.stop, k)

theorem Scheduler.bond_eq : Scheduler.Bond Eq where
  cadence h := by cases h; rfl
  lastStep h := by cases h; rfl
  stopped h := by cases h; rfl
  note _ h := by cases h; rfl
  arm _ h := by cases h; rfl
  fault _ h := by cases h; rfl
  stop h := by cases h; rfl

section Like

open Act.Agrees

variable {W : σ → τ → Prop} {K : Scheduler × Journal → Scheduler × Journal → Prop} {r : Rig σ} {q : Rig τ}
  {A : Core σ} {B : Core τ}

theorem Rig.Like.machine (h : Rig.Like W K r q) :
    Machine.Like W (fun j k => K (r.scheduler, j) (q.scheduler, k)) r.machine q.machine :=
  ⟨h.session, h.world, h.kept⟩

theorem onMachine_like {α : Type} {x : Act (Machine σ) α} {y : Act (Machine τ) α}
    (hxy : Act.Agrees (Machine.Like W fun j k => K (r.scheduler, j) (q.scheduler, k)) x y r.machine
      q.machine) : Act.Agrees (Rig.Like W K) (Rig.onMachine x) (Rig.onMachine y) r q :=
  of_within hxy fun _ _ h => ⟨h.session, h.world, h.journal⟩

theorem rigCall_like {α : Type} {x : Act σ α} {y : Act τ α} (h : Rig.Like W K r q)
    (hxy : Act.Agrees W x y r.machine.world q.machine.world) :
    Act.Agrees (Rig.Like W K) (Rig.call x) (Rig.call y) r q :=
  onMachine_like (call_like h.machine hxy)

section Pacing

variable (bond : Scheduler.Bond K)

include bond

theorem fault_like (h : Rig.Like W K r q) (what : String) (e : Fault) :
    Act.Agrees (Rig.Like W K) (Scheduler.fault what e) (Scheduler.fault what e) r q :=
  ⟨rfl, h.session, h.world, bond.fault (fun n => what ++ " fault #" ++ toString n ++ ": " ++ e.message) h.kept⟩

section Tick

variable {x : Act (Machine σ) (Except Failure Bool)} {y : Act (Machine τ) (Except Failure Bool)}
  (step : ∀ {r q}, Rig.Like W K r q → Act.Agrees (Rig.Like W K) (Rig.onMachine x) (Rig.onMachine y) r q)

include step

theorem attemptBy_like (h : Rig.Like W K r q) (now : Duration) :
    Act.Agrees (Rig.Like W K) (Scheduler.attemptBy x now) (Scheduler.attemptBy y now) r q := by
  unfold Scheduler.attemptBy
  refine andThen (of_modify ⟨h.session, h.world, bond.arm now h.kept⟩) fun _ r q h => ?_
  refine andThen (of_guarded (step h)) fun o r q h => ?_
  cases o with
  | ok stepped => exact of_pure h _
  | error e => exact andThen (fault_like bond h "step" e) fun _ r q h => of_pure h _

theorem tickBy_like {c : Clock σ} {c' : Clock τ}
    (hc : ∀ {w v}, W w v → Act.Agrees W c.now c'.now w v) (h : Rig.Like W K r q) :
    Act.Agrees (Rig.Like W K) (Scheduler.tickBy x c) (Scheduler.tickBy y c') r q := by
  unfold Scheduler.tickBy
  refine get_andThen ?_
  rw [bond.stopped h.kept]
  refine of_ite (fun _ => of_pure h _) fun _ => ?_
  refine andThen (rigCall_like h (hc h.world)) fun now r q h => get_andThen ?_
  have due : r.scheduler.isDue now = q.scheduler.isDue now := by
    rw [Scheduler.isDue, Scheduler.isDue, bond.lastStep h.kept, bond.cadence h.kept]
  rw [h.session, due]
  have settled (outcome : Except String Bool) {r : Rig σ} {q : Rig τ} (h : Rig.Like W K r q)
      (running : Bool) : Act.Agrees (Rig.Like W K) (Scheduler.settle c running now outcome)
        (Scheduler.settle c' running now outcome) r q := by
    unfold Scheduler.settle
    refine get_andThen ?_
    dsimp only
    rw [bond.lastStep h.kept, bond.cadence h.kept]
    refine andThen (rigCall_like h (hc h.world)) fun elapsed r q h => ?_
    cases outcome <;> exact of_pure h _
  refine of_ite (fun _ => ?_) fun _ => ?_
  · exact andThen (attemptBy_like bond step h now) fun outcome r q h => settled outcome h _
  · exact andThen (of_pure h _) fun outcome r q h => settled outcome h _

end Tick

theorem tick_like (hAB : Core.Agrees W A B) {c : Clock σ} {c' : Clock τ}
    (hc : ∀ {w v}, W w v → Act.Agrees W c.now c'.now w v) (h : Rig.Like W K r q) :
    Act.Agrees (Rig.Like W K) (Scheduler.tick A c) (Scheduler.tick B c') r q :=
  tickBy_like bond (fun h => onMachine_like (step_like (fun _ _ l => bond.note l) hAB h.machine)) hc h

end Pacing

variable (hAB : Core.Agrees W A B)

include hAB

theorem present_like (h : Rig.Like W Eq r q) :
    Act.Agrees (Rig.Like W Eq) (Scheduler.present A) (Scheduler.present B) r q := by
  have kept {r : Rig σ} {q : Rig τ} (h : Rig.Like W Eq r q) : r.scheduler = q.scheduler :=
    congrArg Prod.fst h.kept
  unfold Scheduler.present
  refine get_andThen ?_
  rw [kept h]
  refine andThen (onMachine_like (display_like hAB h.machine _)) fun o r q h => ?_
  cases o with
  | ok picture =>
    refine andThen (of_modify ⟨h.session, h.world, ?_⟩) fun _ r q h => of_pure h _
    exact congrArg (fun p : Scheduler × Journal => ({ p.1 with display := picture }, p.2)) h.kept
  | error e => exact of_pure h _

theorem refresh_like {c : Renderer σ} {c' : Renderer τ}
    (hc : ∀ p x y {w v}, W w v → Act.Agrees W (c.paint p x y) (c'.paint p x y) w v)
    (h : Rig.Like W Eq r q) :
    Act.Agrees (Rig.Like W Eq) (Scheduler.refresh A c) (Scheduler.refresh B c') r q := by
  have kept {r : Rig σ} {q : Rig τ} (h : Rig.Like W Eq r q) : r.scheduler = q.scheduler :=
    congrArg Prod.fst h.kept
  unfold Scheduler.refresh
  refine get_andThen ?_
  rw [kept h, h.session]
  refine of_ite (fun _ => of_pure h _) fun _ => ?_
  refine andThen (of_modify ⟨h.session, h.world, ?_⟩) fun _ r q h => ?_
  · exact congrArg (fun p : Scheduler × Journal =>
      ({ p.1 with display :=
          FrameBuffer.resized p.1.display q.machine.session.frameBuffer.displaySize 255 }, p.2)) h.kept
  refine andThen (of_guarded (present_like hAB h)) fun o r q h => ?_
  cases o with
  | error e => exact andThen (fault_like Scheduler.bond_eq h "present" e) fun _ r q h => of_pure h _
  | ok _ =>
    refine get_andThen ?_
    rw [kept h]
    refine andThen (of_guarded (rigCall_like h (hc _ _ _ h.world))) fun o r q h => ?_
    cases o with
    | error e => exact andThen (fault_like Scheduler.bond_eq h "paint" e) fun _ r q h => of_pure h _
    | ok _ => exact of_pure h _

end Like

/-! ## Views -/

/-- Through the view `f` of its world, one operation is the other. -/
inductive RigOp.Projects (f : σ → τ) : RigOp σ → RigOp τ → Prop
  | session (op : Op) : Projects f (.session op) (.session op)
  | tick {c : Clock σ} {c' : Clock τ} (h : ∀ w, Act.Projects f c.now c'.now w) :
    Projects f (.tick c) (.tick c')
  | refresh {v : Renderer σ} {v' : Renderer τ}
      (h : ∀ p x y w, Act.Projects f (v.paint p x y) (v'.paint p x y) w) :
    Projects f (.refresh v) (.refresh v')
  | stop : Projects f .stop .stop

namespace Rig

theorem like_view (f : σ → τ) (r : Rig σ) : Like (fun w v => f w = v) Eq r (r.view f) :=
  ⟨rfl, rfl, rfl⟩

theorem projects_of_like {α : Type} {f : σ → τ} {x : Act (Rig σ) α} {y : Act (Rig τ) α} {r : Rig σ}
    (h : Act.Agrees (Like (fun w v => f w = v) Eq) x y r (r.view f)) : Act.Projects (view f) x y r := by
  obtain ⟨answer, session, world, kept⟩ := h
  obtain ⟨scheduler, journal⟩ := Prod.mk.inj kept
  have seen : (x.after r).view f = y.after (r.view f) := by
    rw [view, Machine.view, session, world, journal, scheduler]
  exact .of_agrees ⟨answer, seen⟩

end Rig

section View

open Act.Agrees

variable {f : σ → τ} {A : Core σ} {B : Core τ} (r : Rig σ) (h : Core.Projects f A B)

include h

/-- **What a host does is the same through a view of the world.** -/
theorem RigOp.act_view {a : RigOp σ} {b : RigOp τ} (hab : RigOp.Projects f a b) :
    Act.Projects (Rig.view f) (a.act A) (b.act B) r := by
  have like := r.like_view f
  refine Rig.projects_of_like ?_
  cases hab with
  | session op =>
    refine of_map _ (onMachine_like (Op.act_like ?_ h.agrees like.machine op))
    exact fun _ _ l => Scheduler.bond_eq.note l
  | tick hc => exact of_map _ (tick_like Scheduler.bond_eq h.agrees (fun hw => hw ▸ (hc _).agrees) like)
  | refresh hv => exact of_map _ (refresh_like h.agrees (fun p x y _ _ hw => hw ▸ (hv p x y _).agrees) like)
  | stop => exact of_modify ⟨rfl, rfl, rfl⟩

theorem Rig.run_view {as : List (RigOp σ)} {bs : List (RigOp τ)}
    (hab : List.Forall₂ (RigOp.Projects f) as bs) : (run A as r).view f = run B bs (r.view f) := by
  induction hab generalizing r with
  | nil => rfl
  | cons hab _ ih => rw [run_cons, run_cons, ih, (RigOp.act_view r h hab).after_eq]

end View

/-! ## What is beside the world -/

namespace RigOp

variable {κ ι : Type}

theorem aside_projects (op : RigOp σ) : Projects Prod.fst (op.aside : RigOp (σ × κ)) op := by
  cases op with
  | session op => exact .session op
  | tick clock => exact .tick (Act.aside_fst _)
  | refresh renderer => exact .refresh fun _ _ _ => Act.aside_fst _
  | stop => exact .stop

theorem projects_aside (k : κ) (op : RigOp σ) : Projects (·, k) op op.aside := by
  cases op with
  | session op => exact .session op
  | tick clock => exact .tick (Act.projects_aside _ k)
  | refresh renderer => exact .refresh fun _ _ _ => Act.projects_aside _ k
  | stop => exact .stop

theorem aside_map (f : κ → ι) (op : RigOp σ) : Projects (Prod.map id f) op.aside op.aside := by
  cases op with
  | session op => exact .session op
  | tick clock => exact .tick fun w => Act.aside_map _ w f
  | refresh renderer => exact .refresh fun _ _ _ w => Act.aside_map _ w f
  | stop => exact .stop

/-- **What is beside the world stays as it was.** -/
theorem act_aside (core : Core σ) (op : RigOp σ) :
    Act.Keeps (fun r : Rig (σ × κ) => r.machine.world.2) (op.aside.act core.aside) := fun r =>
  congrArg (·.machine.world.2)
    (act_view (r.view Prod.fst) (core.projects_aside r.machine.world.2) (op.projects_aside _)).after_eq

end RigOp

/-! ## Calls of a run -/

namespace Rig

variable (core : Core σ)

/-- **Writing the calls down does not change a run.** -/
theorem run_traced (ops : List (RigOp σ)) (r : Rig (Traced σ)) :
    (run core.traced (ops.map RigOp.aside) r).view Prod.fst = run core ops (r.view Prod.fst) :=
  run_view r core.traced_projects
    (List.forall₂_map_left_iff.mpr (List.forall₂_same.mpr fun op _ => op.aside_projects))

@[simp] theorem calls_nil (r : Rig σ) : calls core [] r = [] := rfl

/-- **Run after run, the calls add up.** -/
theorem calls_append (front back : List (RigOp σ)) (r : Rig σ) :
    calls core (front ++ back) r = calls core front r ++ calls core back (run core front r) := by
  have split : run core.traced (front.map RigOp.aside) r.traced =
      (run core front r).traced.view (Prod.map id (calls core front r ++ ·)) := by
    have h := run_traced core front r.traced
    change (run core.traced (front.map RigOp.aside) r.traced).view Prod.fst = run core front r at h
    rw [← h, calls]
    simp [view, Machine.view, traced]
  rw [calls, List.map_append, run_append, split, ← run_view _ (core.traced_since _)
    (List.forall₂_same.mpr fun op hop => ?_)]
  · rfl
  · obtain ⟨op, -, rfl⟩ := List.mem_map.mp hop
    exact op.aside_map _

theorem calls_cons (op : RigOp σ) (ops : List (RigOp σ)) (r : Rig σ) :
    calls core (op :: ops) r = calls core [op] r ++ calls core ops ((op.act core).after r) :=
  calls_append core [op] ops r

end Rig

end EmulatorHost
