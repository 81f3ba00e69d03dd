import EmulatorHost.Proofs.Scheduler.Faults

/-!
# What a scheduler is told and hands over

Clocks tell a scheduler the time, and it hands pictures to renderers. A looker-on writes both down.

* `Sight`: a time that was told, or a picture that was handed over, whatever its renderer then made of it.
* `RigOp.sights`: what is seen of an operation; **`RigOp.seen_erased`**: looking on changes nothing.
* **`RigOp.sights_tick`**: a tick reads its clock at most twice; **`RigOp.sights_refresh`**: a refresh hands over
  the picture it takes, if it takes one.
* `Rig.times`, `Rig.pictures`: the times and the pictures of a run.
-/

namespace EmulatorHost

/-- Something seen of a scheduler at work. -/
inductive Sight where
  | told (time : Duration)
  | shown (picture : ByteArray)

namespace Sight

/-- The time that was told. -/
def time? : Sight → Option Duration
  | told time => some time
  | shown _ => none

/-- The picture that was handed over. -/
def picture? : Sight → Option ByteArray
  | told _ => none
  | shown picture => some picture

end Sight

/-- A world with what was seen so far beside it, the first sight first. -/
abbrev Seen (σ : Type) := σ × List Sight

variable {σ : Type}

/-! ## A looker-on -/

/-- After a look at a clock, which may have told the time. -/
def Sight.noteReading (outcome : Except Panic Duration) (sights : List Sight) : List Sight :=
  sights ++ (outcome.toOption.map told).toList

/-- After a picture was handed over, whatever came of it. -/
def Sight.notePicture {α : Type} (picture : ByteArray) (_ : Except Panic α) (sights : List Sight) : List Sight :=
  sights ++ [shown picture]

/-- A clock seen to tell the time. -/
def Clock.seen (clock : Clock σ) : Clock (Seen σ) where
  now := clock.now.noting Sight.noteReading
  sleep span := (clock.sleep span).aside

/-- A renderer seen to get a picture. -/
def Renderer.seen (renderer : Renderer σ) : Renderer (Seen σ) where
  paint picture width height := (renderer.paint picture width height).noting (Sight.notePicture picture)

/-- A rig of which nothing has been seen. -/
def Rig.seen (r : Rig σ) : Rig (Seen σ) := r.view (·, [])

namespace RigOp

/-- The same with a looker-on. -/
def seen : RigOp σ → RigOp (Seen σ)
  | session op => session op
  | tick clock => tick clock.seen
  | refresh renderer => refresh renderer.seen
  | stop => stop

/-- What is seen of an operation. -/
def sights (core : Core σ) (r : Rig σ) (op : RigOp σ) : List Sight :=
  ((op.seen.act core.aside).after r.seen).machine.world.2

end RigOp

namespace Rig

variable (core : Core σ)

/-- What is seen of a run, the first sight first. -/
def sights : List (RigOp σ) → Rig σ → List Sight
  | [], _ => []
  | op :: ops, r => op.sights core r ++ sights ops ((op.act core).after r)

/-- The times that clocks told in a run, the first one first. -/
def times (ops : List (RigOp σ)) (r : Rig σ) : List Duration := (r.sights core ops).filterMap Sight.time?

/-- The pictures handed over in a run, the first one first. -/
def pictures (ops : List (RigOp σ)) (r : Rig σ) : List ByteArray :=
  (r.sights core ops).filterMap Sight.picture?

theorem sights_singleton (op : RigOp σ) (r : Rig σ) : r.sights core [op] = op.sights core r :=
  List.append_nil _

theorem sights_append (front back : List (RigOp σ)) (r : Rig σ) :
    r.sights core (front ++ back) = r.sights core front ++ (run core front r).sights core back := by
  induction front generalizing r with
  | nil => rfl
  | cons op front ih => rw [List.cons_append, sights, sights, ih, List.append_assoc, run_cons]

theorem times_append (front back : List (RigOp σ)) (r : Rig σ) :
    r.times core (front ++ back) = r.times core front ++ (run core front r).times core back := by
  rw [times, sights_append, List.filterMap_append]
  rfl

theorem pictures_append (front back : List (RigOp σ)) (r : Rig σ) :
    r.pictures core (front ++ back) = r.pictures core front ++ (run core front r).pictures core back := by
  rw [pictures, sights_append, List.filterMap_append]
  rfl

theorem times_cons (op : RigOp σ) (ops : List (RigOp σ)) (r : Rig σ) :
    r.times core (op :: ops) = r.times core [op] ++ ((op.act core).after r).times core ops :=
  times_append core [op] ops r

theorem pictures_cons (op : RigOp σ) (ops : List (RigOp σ)) (r : Rig σ) :
    r.pictures core (op :: ops) = r.pictures core [op] ++ ((op.act core).after r).pictures core ops :=
  pictures_append core [op] ops r

end Rig

/-! ## Looking on changes nothing -/

theorem Clock.seen_now (clock : Clock σ) (w : Seen σ) :
    clock.seen.now w = match clock.now w.1 with
      | .ok time v => .ok time (v, w.2 ++ [.told time])
      | .error p v => .error p (v, w.2) := by
  unfold seen Act.noting
  dsimp only
  cases clock.now w.1 with
  | ok time v => rfl
  | error p v => exact congrArg (fun sights => EStateM.Result.error p (v, sights)) (List.append_nil _)

namespace RigOp

variable (core : Core σ) (op : RigOp σ) (r : Rig σ)

theorem seen_projects : RigOp.Projects Prod.fst op.seen op := by
  cases op with
  | session op => exact .session op
  | tick clock => exact .tick (clock.now.noting_fst Sight.noteReading)
  | refresh renderer => exact .refresh fun picture width height =>
      (renderer.paint picture width height).noting_fst (Sight.notePicture picture)
  | stop => exact .stop

/-- **Looking on changes nothing.** -/
theorem seen_erased : ((op.seen.act core.aside).after r.seen).view Prod.fst = (op.act core).after r :=
  (act_view r.seen core.aside_projects op.seen_projects).after_eq.symm

/-! ## What is seen of an operation -/

theorem sights_session (op : Op) : (session op).sights core r = [] := by
  have same : ((session op : RigOp (Seen σ)).act core.aside).after r.seen = _ :=
    (act_view r (core.projects_aside []) (.session op)).after_eq
  rw [sights, seen, same]
  rfl

theorem sights_tick_stopped (clock : Clock σ) (stopped : r.scheduler.stopped = true) :
    (tick clock).sights core r = [] := by
  have idle := Scheduler.tick_idle core.aside clock.seen (r := r.seen) stopped
  rw [sights, seen, act, Act.after_map, Act.after_of_ok idle]
  rfl

theorem paced_seen (l : List Sight) (now : Duration) (r : Rig σ) :
    ((r.view (·, l)).paced (Session.step core.aside) now).machine.world =
      ((r.paced (Session.step core) now).machine.world, l) := by
  have like : Machine.Like (fun w v => (w, l) = v) Eq r.machine (r.view (·, l)).machine :=
    ⟨rfl, rfl, rfl⟩
  have stepped := (step_like journal_continues (core.projects_aside l).agrees like).2.world
  unfold Rig.paced
  change (ite (r.attempts now = true) _ _ : Rig (Seen σ)).machine.world = _
  cases r.attempts now with
  | false => rfl
  | true => rw [if_pos rfl, if_pos rfl, Rig.attempted_world, Rig.attempted_world, stepped]

/-- **A tick reads its clock, and if that answers, again after its step.** -/
theorem sights_tick (clock : Clock σ) {r : Rig σ} (awake : r.scheduler.stopped = false) :
    (tick clock).sights core r = match clock.now r.machine.world with
      | .error _ _ => []
      | .ok now v => .told now ::
        match clock.now ((r.inWorld v).paced (Session.step core) now).machine.world with
        | .error _ _ => []
        | .ok later _ => [.told later] := by
  rw [sights, seen, act, Act.after_map, Scheduler.tick_eq]
  have first := clock.seen_now (r.machine.world, [])
  cases read : clock.now r.machine.world with
  | error p v =>
    rw [read] at first
    rw [Act.after_of_error (Scheduler.tickBy_of_panic _ clock.seen (r := r.seen) awake first)]
    rfl
  | ok now v =>
    rw [read] at first
    rw [Scheduler.after_tickBy (Session.step core.aside) clock.seen (r := r.seen) awake first]
    change (clock.seen.now.after (((r.inWorld v).view (·, [.told now])).paced
      (Session.step core.aside) now).machine.world).2 = _
    rw [paced_seen, Act.after, clock.seen_now]
    dsimp only
    cases clock.now ((r.inWorld v).paced (Session.step core) now).machine.world <;> rfl

theorem sights_refresh_idle (renderer : Renderer σ) {r : Rig σ}
    (idle : r.scheduler.stopped = true ∨ r.machine.session.isRunning = false) :
    (refresh renderer).sights core r = [] := by
  have skipped := Scheduler.refresh_idle core.aside renderer.seen (r := r.seen) idle
  rw [sights, seen, act, Act.after_map, Act.after_of_ok skipped]
  rfl

/-- **A refresh hands over the picture it takes, if it takes one.** -/
theorem sights_refresh (renderer : Renderer σ) {r : Rig σ} (awake : r.scheduler.stopped = false)
    (running : r.machine.session.isRunning = true) :
    (refresh renderer).sights core r = match r.shot core with
      | .error _ => []
      | .ok picture => [.shown picture] := by
  have memory := core.memory.projects_aside ([] : List Sight) r.machine.world
  have shot : r.seen.shot core.aside = r.shot core := by
    have answered : core.aside.memory.answer r.seen.machine.world = core.memory.answer r.machine.world :=
      memory.answer_eq
    unfold Rig.shot
    rw [answered]
    rfl
  have nothing : (r.seen.exposed core.aside).machine.world.2 = [] :=
    congrArg Prod.snd memory.after_eq
  have refreshed := Scheduler.refresh_eq core.aside renderer.seen (r := r.seen) awake running
  rw [sights, seen, act, Act.after_map]
  rw [shot] at refreshed
  cases taken : r.shot core with
  | error f =>
    rw [taken] at refreshed
    rw [Act.after_of_ok refreshed]
    exact nothing
  | ok picture =>
    rw [taken] at refreshed
    have painted (width height : Nat) :
        ((renderer.seen.paint picture width height).after (r.seen.exposed core.aside).machine.world).2 =
          [.shown picture] := by
      rw [Renderer.seen, Act.after_noting, nothing]
      rfl
    dsimp only at refreshed
    split at refreshed
    all_goals
      rw [Act.after_of_ok refreshed]
      exact painted _ _

end RigOp

end EmulatorHost
