import EmulatorHost.Proofs.Scheduler.Effect
import EmulatorHost.Proofs.Scheduler.Pacing
import EmulatorHost.Proofs.Scheduler.Transcript

/-!
# Presentation

* `Core.Apart`, `RigOp.Apart`: emulation goes by a part of the world that showing pictures leaves alone.
* `Rig.Thinned`: a run with some of its refreshes taken out.
* **`RigOp.act_alike`**: an operation does the same to two rigs with the same emulation.
* **`Rig.run_thinned`**: a run and what is left of it without some refreshes differ in nothing else.
-/

namespace EmulatorHost

variable {σ τ : Type}

/-! ## What emulation goes by -/

/-- All that the core does goes by what `f` sees of the world, and a look at its memory changes nothing
there. -/
structure Core.Apart (f : σ → τ) (core : Core σ) : Prop where
  agrees : Core.Agrees (fun w v => f w = f v) core core
  memory : Act.Keeps f core.memory

/-- Clocks go by what `f` sees of the world, and renderers change nothing there. -/
def RigOp.Apart (f : σ → τ) : RigOp σ → Prop
  | tick clock => ∀ {w v}, f w = f v → Act.Agrees (fun w v => f w = f v) clock.now clock.now w v
  | refresh renderer => ∀ picture width height, Act.Keeps f (renderer.paint picture width height)
  | session _ => True
  | stop => True

/-- Whether an operation shows a picture. -/
def RigOp.isRefresh : RigOp σ → Bool
  | refresh _ => true
  | _ => false

/-- Two schedulers that pace steps alike, whatever they have shown, counted and written down. -/
def Scheduler.PacesAlike (p q : Scheduler × Journal) : Prop :=
  p.1.cadence = q.1.cadence ∧ p.1.lastStep = q.1.lastStep ∧ p.1.stopped = q.1.stopped

theorem Scheduler.bond_pacesAlike : Scheduler.Bond Scheduler.PacesAlike where
  cadence h := h.1
  lastStep h := h.2.1
  stopped h := h.2.2
  note _ h := h
  arm _ h := ⟨h.1, rfl, h.2.2⟩
  fault _ h := h
  stop h := ⟨h.1, h.2.1, rfl⟩

/-- Two rigs with the same emulation. -/
abbrev Rig.Alike (f : σ → τ) : Rig σ → Rig σ → Prop := Like (fun w v => f w = f v) Scheduler.PacesAlike

section Step

variable {f : σ → τ} {core : Core σ} {r q : Rig σ}

theorem Rig.Alike.of_emulation {r' q' : Rig σ} (h : Rig.Alike f r q)
    (hr : r'.emulation f = r.emulation f) (hq : q'.emulation f = q.emulation f) : Rig.Alike f r' q' where
  session := ((congrArg Emulation.session hr).trans h.session).trans (congrArg Emulation.session hq).symm
  world := ((congrArg Emulation.world hr).trans h.world).trans (congrArg Emulation.world hq).symm
  kept :=
    ⟨((congrArg Emulation.cadence hr).trans h.kept.1).trans (congrArg Emulation.cadence hq).symm,
      ((congrArg Emulation.lastStep hr).trans h.kept.2.1).trans (congrArg Emulation.lastStep hq).symm,
      ((congrArg Emulation.stopped hr).trans h.kept.2.2).trans (congrArg Emulation.stopped hq).symm⟩

theorem RigOp.refresh_emulation (apart : core.Apart f) {renderer : Renderer σ}
    (paints : (refresh renderer).Apart f) (r : Rig σ) :
    (((refresh renderer).act core).after r).emulation f = r.emulation f := by
  rw [act, Act.after_map]
  exact Rig.refresh_keeps apart.memory paints r

theorem RigOp.refresh_calls (core : Core σ) (renderer : Renderer σ) (r : Rig σ) :
    r.calls core [.refresh renderer] = [] := by
  have performs := (RigOp.refresh renderer).performs core r
  generalize r.calls core [.refresh renderer] = xs at performs
  generalize (((RigOp.refresh renderer).act core).after r).machine.session = t at performs
  cases performs
  rfl

open Act.Agrees in
/-- What a host is told, from rigs related in any way that suits their parties. -/
theorem RigOp.reply_like {W : σ → σ → Prop} {K : Scheduler × Journal → Scheduler × Journal → Prop}
    (bond : Scheduler.Bond K) (agrees : Core.Agrees W core core) (op : RigOp σ) (h : Rig.Like W K r q)
    (steers : op.isRefresh = false)
    (clock : ∀ {c w v}, op = tick c → W w v → Act.Agrees W c.now c.now w v) :
    Act.Agrees (Rig.Like W K) (op.reply core) (op.reply core) r q := by
  cases op with
  | session op =>
    refine of_map _ (onMachine_like (Op.act_like ?_ agrees h.machine op))
    exact fun _ _ l => bond.note l
  | tick c => exact of_map _ (tick_like bond agrees (clock rfl) h)
  | refresh renderer => cases steers
  | stop => exact of_map _ (of_modify ⟨h.session, h.world, bond.stop h.kept⟩)

/-- **An operation does the same to two rigs with the same emulation.** -/
theorem RigOp.act_alike (apart : core.Apart f) (op : RigOp σ) (sees : op.Apart f) (h : Rig.Alike f r q) :
    r.calls core [op] = q.calls core [op] ∧
      (op.isRefresh = false → (op.reply core).answer r = (op.reply core).answer q) ∧
      Rig.Alike f ((op.act core).after r) ((op.act core).after q) := by
  cases steers : op.isRefresh with
  | true =>
    cases op with
    | refresh renderer =>
      rw [refresh_calls, refresh_calls]
      exact ⟨rfl, nofun, h.of_emulation (refresh_emulation apart sees r) (refresh_emulation apart sees q)⟩
    | session op => cases steers
    | tick clock => cases steers
    | stop => cases steers
  | false =>
    have told := op.reply_like Scheduler.bond_pacesAlike apart.agrees h steers
      (fun {c w v} is same => by subst is; exact sees same)
    have traced := op.aside.reply_like Scheduler.bond_pacesAlike (apart.agrees.noting fun e calls => calls ++ [e])
      (r := r.traced) (q := q.traced) ⟨h.session, ⟨h.world, rfl⟩, h.kept⟩ (by cases op <;> exact steers)
      (fun {c w v} is same => by
        cases op with
        | tick clock =>
          cases is
          exact (sees same.1).aside same.2
        | session op => cases is
        | refresh renderer => cases is
        | stop => cases is)
    have calls := traced.2.world.2
    rw [after_reply, after_reply] at calls
    refine ⟨calls, fun _ => told.1, ?_⟩
    rw [← after_reply, ← after_reply]
    exact told.2

end Step

/-! ## Runs -/

namespace Rig

/-- The operations of a run, and those that are left with some of the refreshes taken out. -/
inductive Thinned : List (RigOp σ) → List (RigOp σ) → Prop
  | nil : Thinned [] []
  | keep {ops fewer : List (RigOp σ)} (op : RigOp σ) (h : Thinned ops fewer) :
    Thinned (op :: ops) (op :: fewer)
  | drop {ops fewer : List (RigOp σ)} (renderer : Renderer σ) (h : Thinned ops fewer) :
    Thinned (.refresh renderer :: ops) fewer

/-- What a host is told in a run by everything but refreshes. -/
def steering (core : Core σ) (ops : List (RigOp σ)) (r : Rig σ) : List (RigOp σ × Except Panic Reply) :=
  (transcript core ops r).filter fun entry => !entry.1.isRefresh

variable {f : σ → τ} {core : Core σ}

theorem steering_cons (op : RigOp σ) (ops : List (RigOp σ)) (r : Rig σ) :
    steering core (op :: ops) r =
      (if op.isRefresh then [] else [(op, (op.reply core).answer r)]) ++
        steering core ops ((op.act core).after r) := by
  unfold steering
  rw [transcript, List.filter_cons]
  cases op.isRefresh <;> rfl

theorem thinned_alike (apart : core.Apart f) {ops fewer : List (RigOp σ)} (h : Thinned ops fewer)
    (sees : ∀ op ∈ ops, op.Apart f) {r q : Rig σ} (alike : Alike f r q) :
    r.calls core ops = q.calls core fewer ∧ r.steering core ops = q.steering core fewer ∧
      Alike f (r.run core ops) (q.run core fewer) := by
  induction h generalizing r q with
  | nil => exact ⟨rfl, rfl, alike⟩
  | @keep ops fewer op h ih =>
    obtain ⟨this, rest⟩ := List.forall_mem_cons.mp sees
    obtain ⟨calls, told, alike⟩ := op.act_alike apart this alike
    obtain ⟨later, toldLater, alike⟩ := ih rest alike
    refine ⟨by rw [calls_cons core op ops r, calls_cons core op fewer q, calls, later], ?_, alike⟩
    rw [steering_cons, steering_cons, toldLater]
    cases steers : op.isRefresh with
    | true => rfl
    | false => rw [told steers]
  | @drop ops fewer renderer h ih =>
    obtain ⟨this, rest⟩ := List.forall_mem_cons.mp sees
    have still := RigOp.refresh_emulation apart this r
    obtain ⟨calls, told, alike⟩ := ih rest (alike.of_emulation still rfl)
    refine ⟨?_, ?_, alike⟩
    · rw [calls_cons, RigOp.refresh_calls, List.nil_append, calls]
    · rw [steering_cons, told]
      rfl

/-- **Showing pictures does not influence emulation.** Take any refreshes out of a run: the core gets the
same calls, ticks and session operations answer the same, and the same session is left at the end. -/
theorem run_thinned (apart : core.Apart f) {ops fewer : List (RigOp σ)} (h : Thinned ops fewer)
    (sees : ∀ op ∈ ops, op.Apart f) (r : Rig σ) :
    calls core fewer r = calls core ops r ∧ steering core fewer r = steering core ops r ∧
      (run core fewer r).machine.session = (run core ops r).machine.session ∧
      f (run core fewer r).machine.world = f (run core ops r).machine.world := by
  obtain ⟨calls, told, alike⟩ := thinned_alike apart h sees (r := r) (q := r) ⟨rfl, rfl, rfl, rfl, rfl⟩
  exact ⟨calls.symm, told.symm, alike.session.symm, alike.world.symm⟩

/-- A renderer that counts what it is shown, and then panics. -/
def countingRenderer : Renderer (σ × Nat) :=
  ⟨fun _ _ _ => do modify fun w => (w.1, w.2 + 1); throw .other⟩

/-- A host that shows a picture after every tick. -/
def shownTicks : List (RigOp (List (Option Fault) × Nat)) :=
  [.session (.loadRom .empty), .tick (clockAt (.ofNanos 7)), .refresh countingRenderer,
    .tick (clockAt (.ofNanos 40)), .refresh countingRenderer]

theorem run_thinned_shownTicks :
    let core := Core.faulty.aside
    let fewer := [shownTicks[0], shownTicks[1], shownTicks[3], shownTicks[4]]
    let r := lateStart.view (·, 0)
    core.Apart Prod.fst ∧ Thinned shownTicks fewer ∧ (∀ op ∈ shownTicks, op.Apart Prod.fst) ∧
      calls core fewer r = calls core shownTicks r ∧ steering core fewer r = steering core shownTicks r := by
  intro core fewer r
  have apart : core.Apart Prod.fst := ⟨Core.faulty.aside_projects.alike, fun w => rfl⟩
  have thinned : Thinned shownTicks fewer :=
    .keep _ (.keep _ (.drop _ (.keep _ (.keep _ .nil))))
  have sees : ∀ op ∈ shownTicks, op.Apart Prod.fst := by
    intro op hop
    simp only [shownTicks, List.mem_cons, List.not_mem_nil, or_false] at hop
    rcases hop with rfl | rfl | rfl | rfl | rfl
    · exact trivial
    · exact fun same => .of_pure same _
    · exact fun _ _ _ _ => rfl
    · exact fun same => .of_pure same _
    · exact fun _ _ _ _ => rfl
  obtain ⟨same, told, -⟩ := run_thinned apart thinned sees r
  exact ⟨apart, thinned, sees, same, told⟩

end Rig

end EmulatorHost
