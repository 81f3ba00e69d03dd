import EmulatorHost.Proofs.Scheduler.Faults
import EmulatorHost.Proofs.Scheduler.Presentation

/-!
# The readings of a tick

All that a tick takes from its clock are two readings, so a tick that is shown the same readings by another
clock does the same.

* `Rig.between`: the rig between the two readings of a tick.
* `Clock.Shows`: two clocks show a tick the same; **`tick_like_of_shows`**: then it does the same.
* `RigOp.Matches`: operations whose clocks and renderers do the same; `RigOp.Matches.reply_like`,
  `RigOp.Matches.calls_eq`.
* `Clock.giving`: a clock that shows given readings; **`Clock.shows_giving`**: it may stand for any other.
-/

namespace EmulatorHost

variable {σ τ : Type}

/-! ## Two ticks with the same readings -/

section Readings

open Act.Agrees

variable {W V : σ → τ → Prop} {A : Core σ} {B : Core τ} {r : Rig σ} {q : Rig τ}

namespace Rig.Like

theorem inWorld (h : Rig.Like W Eq r q) {w : σ} {v : τ} (hw : V w v) :
    Rig.Like V Eq (r.inWorld w) (q.inWorld v) := ⟨h.session, hw, h.kept⟩

theorem scheduler (h : Rig.Like W Eq r q) : r.scheduler = q.scheduler := congrArg Prod.fst h.kept

theorem paced (agrees : Core.Agrees W A B) (h : Rig.Like W Eq r q) (now : Duration) :
    r.outcome (Session.step A) now = q.outcome (Session.step B) now ∧
      Rig.Like W Eq (r.paced (Session.step A) now) (q.paced (Session.step B) now) := by
  have same : r.attempts now = q.attempts now := by
    unfold Rig.attempts
    rw [h.session, h.scheduler]
  unfold Rig.outcome Rig.paced
  rw [← same]
  split_ifs
  · obtain ⟨answer, after⟩ := attemptBy_like Scheduler.bond_eq
      (fun h => onMachine_like (step_like (fun _ _ l => Scheduler.bond_eq.note l) agrees h.machine)) h now
    rw [Act.answer_of_ok (Rig.attemptBy_apply _ _ _), Act.answer_of_ok (Rig.attemptBy_apply _ _ _)] at answer
    rw [Act.after_of_ok (Rig.attemptBy_apply _ _ _), Act.after_of_ok (Rig.attemptBy_apply _ _ _)] at after
    exact ⟨Except.ok.inj answer, after⟩
  · exact ⟨rfl, h⟩

theorem reference (h : Rig.Like W Eq r q) (now : Duration) : r.reference now = q.reference now := by
  unfold Rig.reference
  rw [h.session, h.scheduler]

end Rig.Like

theorem Scheduler.answer_tickBy_eq (step : Act (Machine σ) (Except Failure Bool)) (clock : Clock σ)
    (awake : r.scheduler.stopped = false) {now : Duration}
    (read : clock.now.answer r.machine.world = .ok now) :
    let q := r.inWorld (clock.now.after r.machine.world)
    (tickBy step clock).answer r = (clock.now.answer (q.paced step now).machine.world).map fun later =>
      .of (q.outcome step now) (r.scheduler.cadence.interval - (later - q.reference now)) := by
  intro q
  rw [Act.answer, tickBy_eq step clock awake, Act.eq_of_answer read]
  unfold Act.answer
  dsimp only [q]
  cases clock.now ((r.inWorld (clock.now.after r.machine.world)).paced step now).machine.world <;> rfl

/-- The rig between the two readings of a tick, the first of which is `now`. -/
def Rig.between (core : Core σ) (clock : Clock σ) (now : Duration) (r : Rig σ) : Rig σ :=
  (r.inWorld (clock.now.after r.machine.world)).paced (Session.step core) now

/-- From the rigs `r` and `q` two clocks show a tick the same: in worlds related by `W`, and by `V` between the
two readings. -/
structure Clock.Shows (W V : σ → τ → Prop) (A : Core σ) (c : Clock σ) (d : Clock τ) (r : Rig σ)
    (q : Rig τ) : Prop where
  first : c.now.answer r.machine.world = d.now.answer q.machine.world
  stuck {p : Panic} (read : c.now.answer r.machine.world = .error p) :
    W (c.now.after r.machine.world) (d.now.after q.machine.world)
  between {now : Duration} (read : c.now.answer r.machine.world = .ok now) :
    V (c.now.after r.machine.world) (d.now.after q.machine.world)
  second {now : Duration} (read : c.now.answer r.machine.world = .ok now) {v : τ}
    (related : V (r.between A c now).machine.world v) :
    Act.Agrees W c.now d.now (r.between A c now).machine.world v

/-- **Two ticks that are shown the same do the same** to rigs that are alike. -/
theorem tick_like_of_shows (agrees : Core.Agrees V A B) {c : Clock σ} {d : Clock τ}
    (h : Rig.Like W Eq r q) (shows : Clock.Shows W V A c d r q) :
    Act.Agrees (Rig.Like W Eq) (Scheduler.tick A c) (Scheduler.tick B d) r q := by
  cases awake : r.scheduler.stopped with
  | true =>
    have awake' : q.scheduler.stopped = true := h.scheduler ▸ awake
    rw [Act.Agrees, Act.answer, Act.answer, Act.after, Act.after, Scheduler.tick_idle A c awake,
      Scheduler.tick_idle B d awake']
    exact ⟨rfl, h⟩
  | false =>
    have awake' : q.scheduler.stopped = false := h.scheduler ▸ awake
    rw [Scheduler.tick_eq, Scheduler.tick_eq]
    cases read : c.now.answer r.machine.world with
    | error p =>
      have read' := shows.first.symm.trans read
      have ticked := Scheduler.tickBy_of_panic (Session.step A) c awake (Act.eq_of_answer_error read)
      have ticked' := Scheduler.tickBy_of_panic (Session.step B) d awake' (Act.eq_of_answer_error read')
      rw [Act.Agrees, Act.answer_of_error ticked, Act.answer_of_error ticked', Act.after_of_error ticked,
        Act.after_of_error ticked']
      exact ⟨rfl, h.inWorld (shows.stuck read)⟩
    | ok now =>
      have read' := shows.first.symm.trans read
      have like := h.inWorld (shows.between read)
      obtain ⟨outcome, paced⟩ := like.paced agrees now
      obtain ⟨again, left⟩ := shows.second read paced.world
      rw [Rig.between] at again left
      rw [Act.Agrees, Scheduler.after_tickBy _ c awake (Act.eq_of_answer read),
        Scheduler.after_tickBy _ d awake' (Act.eq_of_answer read'), Scheduler.answer_tickBy_eq _ c awake read,
        Scheduler.answer_tickBy_eq _ d awake' read', outcome, like.reference, h.scheduler, again]
      exact ⟨rfl, paced.inWorld left⟩

theorem Clock.answer_aside {κ : Type} (c : Clock σ) (w : σ × κ) :
    c.aside.now.answer w = c.now.answer w.1 := c.now.answer_aside w

theorem Clock.after_aside {κ : Type} (c : Clock σ) (w : σ × κ) :
    c.aside.now.after w = (c.now.after w.1, w.2) := c.now.after_aside w

theorem Clock.Shows.traced {c : Clock σ} {d : Clock τ} (shows : Clock.Shows W V A c d r q) :
    Clock.Shows (Alongside W) (Alongside V) A.traced c.aside d.aside r.traced q.traced := by
  refine ⟨?_, fun read => ?_, fun read => ?_, fun {now} read v related => ?_⟩
  · rw [answer_aside, answer_aside]
    exact shows.first
  · rw [answer_aside] at read
    rw [after_aside, after_aside]
    exact ⟨shows.stuck read, rfl⟩
  · rw [answer_aside] at read
    rw [after_aside, after_aside]
    exact ⟨shows.between read, rfl⟩
  · rw [answer_aside] at read
    have plain : Rig.Like (fun w v => w.1 = v) Eq
        (r.traced.inWorld (c.aside.now.after r.traced.machine.world))
        (r.inWorld (c.now.after r.machine.world)) := by
      rw [after_aside]
      exact ⟨rfl, rfl, rfl⟩
    have world : (r.traced.between A.traced c.aside now).machine.world.1 =
        (r.between A c now).machine.world := (plain.paced A.traced_projects.agrees now).2.world
    have shown := shows.second read (v := v.1)
    rw [← world] at shown
    exact (shown related.1).aside related.2

end Readings

/-! ## Operations that match -/

/-- Operations that do the same from the rigs `r` and `q`: their clocks and renderers do. -/
inductive RigOp.Matches (W V : σ → τ → Prop) (A : Core σ) (r : Rig σ) (q : Rig τ) :
    RigOp σ → RigOp τ → Prop
  | session (op : Op) : Matches W V A r q (.session op) (.session op)
  | tick {c : Clock σ} {d : Clock τ} (shows : Clock.Shows W V A c d r q) :
    Matches W V A r q (.tick c) (.tick d)
  | refresh {c : Renderer σ} {d : Renderer τ}
    (paints : ∀ p x y {w v}, W w v → Act.Agrees W (c.paint p x y) (d.paint p x y) w v) :
    Matches W V A r q (.refresh c) (.refresh d)
  | stop : Matches W V A r q .stop .stop

namespace RigOp.Matches

variable {W V : σ → τ → Prop} {A : Core σ} {B : Core τ} {r : Rig σ} {q : Rig τ} {a : RigOp σ}
  {b : RigOp τ}

open Act.Agrees in
theorem reply_like (m : Matches W V A r q a b) (agrees : Core.Agrees W A B) (between : Core.Agrees V A B)
    (h : Rig.Like W Eq r q) : Act.Agrees (Rig.Like W Eq) (a.reply A) (b.reply B) r q := by
  cases m with
  | session op =>
    refine of_map _ (onMachine_like (Op.act_like ?_ agrees h.machine op))
    exact fun _ _ l => Scheduler.bond_eq.note l
  | tick shows => exact of_map _ (tick_like_of_shows between h shows)
  | refresh paints => exact of_map _ (refresh_like agrees paints h)
  | stop => exact of_map _ (of_modify ⟨h.session, h.world, Scheduler.bond_eq.stop h.kept⟩)

theorem traced (m : Matches W V A r q a b) :
    Matches (Alongside W) (Alongside V) A.traced r.traced q.traced a.aside b.aside := by
  cases m with
  | session op => exact .session op
  | tick shows => exact .tick shows.traced
  | refresh paints => exact .refresh fun p x y _ _ h => (paints p x y h.1).aside h.2
  | stop => exact .stop

theorem calls_eq (m : Matches W V A r q a b) (agrees : Core.Agrees W A B) (between : Core.Agrees V A B)
    (h : Rig.Like W Eq r q) : r.calls A [a] = q.calls B [b] := by
  have like := m.traced.reply_like (agrees.noting _) (between.noting _) (r := r.traced) (q := q.traced)
    ⟨h.session, ⟨h.world, rfl⟩, h.kept⟩
  have calls := like.2.world.2
  rw [RigOp.after_reply, RigOp.after_reply] at calls
  exact calls

end RigOp.Matches

/-! ## The same readings -/

/-- A clock that shows two readings in turn. The count beside the world says which of them is next. -/
def Clock.giving (first second : Except Panic Duration) : Clock (σ × Nat) where
  now := do
    if (← get).2 = 0 then
      let now ← Act.ofExcept first
      modify fun w => (w.1, 1)
      return now
    else
      modify fun w => (w.1, 0)
      Act.ofExcept second
  sleep _ := return

/-- What the clock shows a tick, before its step and after it. -/
def Rig.bothReadings (core : Core σ) (clock : Clock σ) (r : Rig σ) :
    Except Panic Duration × Except Panic Duration :=
  let first := clock.now.answer r.machine.world
  (first, first.bind fun now => clock.now.answer (r.between core clock now).machine.world)

/-- The operation where a rig stands, with the readings of its clock given. -/
def RigOp.given (core : Core σ) (r : Rig σ) : RigOp σ → RigOp (σ × Nat)
  | session op => session op
  | tick clock => tick (.giving (r.bothReadings core clock).1 (r.bothReadings core clock).2)
  | refresh renderer => refresh renderer.aside
  | stop => stop

/-- The same as far as `f` sees, with a count beside one of them. -/
def Counted (f : σ → τ) (n : Nat) (w : σ) (v : σ × Nat) : Prop := f w = f v.1 ∧ v.2 = n

section Given

variable {f : σ → τ} {n : Nat} {core : Core σ} {r : Rig σ} {q : Rig (σ × Nat)}

theorem Act.Agrees.counted {α : Type} {x : Act σ α} {w : σ} {v : σ × Nat}
    (agrees : ∀ {w v}, f w = f v → Act.Agrees (fun w v => f w = f v) x x w v) (h : Counted f n w v) :
    Act.Agrees (Counted f n) x x.aside w v := by
  obtain ⟨answer, after⟩ := agrees h.1
  rw [Act.Agrees, Act.after_aside, Act.answer_aside]
  exact ⟨answer, after, h.2⟩

theorem Core.Agrees.counted (agrees : Core.Agrees (fun w v => f w = f v) core core) :
    Core.Agrees (Counted f n) core core.aside where
  reset := .counted agrees.reset
  load rom := .counted (agrees.load rom)
  step := .counted agrees.step
  updateKey input := .counted (agrees.updateKey input)
  memory := .counted agrees.memory

theorem Clock.answer_giving (first second : Except Panic Duration) (v : σ × Nat) :
    (giving first second).now.answer v = if v.2 = 0 then first else second := by
  obtain ⟨w, _ | n⟩ := v
  · cases first <;> rfl
  · cases second <;> rfl

theorem Clock.after_giving (first second : Except Panic Duration) (v : σ × Nat) :
    (giving first second).now.after v = (v.1, if v.2 = 0 ∧ first.isOk then 1 else 0) := by
  obtain ⟨w, _ | n⟩ := v
  · cases first <;> rfl
  · cases second <;> rfl

/-- **The readings of a tick show another tick the same.** -/
theorem Clock.shows_giving {clock : Clock σ} (keeps : Act.Keeps f clock.now)
    (like : Rig.Like (Counted f 0) Eq r q) :
    Clock.Shows (Counted f 0) (Counted f 1) core clock
      (.giving (r.bothReadings core clock).1 (r.bothReadings core clock).2) r q := by
  obtain ⟨same, count⟩ := like.world
  refine ⟨?_, fun read => ?_, fun read => ?_, fun {now} read v related => ?_⟩
  · rw [answer_giving, if_pos count]
    rfl
  · rw [after_giving]
    exact ⟨(keeps _).trans same, by simp [Rig.bothReadings, read, Except.isOk, Except.toBool]⟩
  · rw [after_giving]
    exact ⟨(keeps _).trans same, by simp [Rig.bothReadings, read, count, Except.isOk, Except.toBool]⟩
  · obtain ⟨same, count⟩ := related
    have turn : ¬ v.2 = 0 := by omega
    rw [Act.Agrees, answer_giving, after_giving, if_neg turn]
    exact ⟨by rw [Rig.bothReadings, read]; rfl, (keeps _).trans same, by simp [turn]⟩

end Given

/-- Renderers go by what `f` sees of the world, and clocks change nothing there. -/
def RigOp.Beside (f : σ → τ) : RigOp σ → Prop
  | tick clock => Act.Keeps f clock.now
  | refresh renderer => ∀ p x y {w v}, f w = f v →
    Act.Agrees (fun w v => f w = f v) (renderer.paint p x y) (renderer.paint p x y) w v
  | session _ => True
  | stop => True

theorem RigOp.given_matches {f : σ → τ} (core : Core σ) {op : RigOp σ} (beside : op.Beside f) {r : Rig σ}
    {q : Rig (σ × Nat)} (like : Rig.Like (Counted f 0) Eq r q) :
    Matches (Counted f 0) (Counted f 1) core r q op (op.given core r) := by
  cases op with
  | session op => exact .session op
  | tick clock => exact .tick (Clock.shows_giving beside like)
  | refresh renderer => exact .refresh fun p x y _ _ h => .counted (beside p x y) h
  | stop => exact .stop

end EmulatorHost
