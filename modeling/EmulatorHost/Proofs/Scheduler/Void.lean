import EmulatorHost.Proofs.Scheduler.Readings
import EmulatorHost.Proofs.Scheduler.Refresh

/-!
# Void operations

Some operations need a session that runs, or one that takes live input. Where there is none they do nothing,
so a run is the same without them.

* `RigOp.isVoid`; **`RigOp.view_of_void`**: such an operation changes nothing but what only a clock sees, and
  `RigOp.calls_of_void`: it makes no call on the core.
* `Rig.history`: the operations of a run, each with the rig that it finds; `Rig.effective`: those that are not
  void.
* `Rig.passage`: an operation of a run as it was seen from outside.
* `Rig.kept`: what is left of a run, every clock showing what it showed in the run.
* **`Rig.run_without_void`**: it is the same run, an operation at a time.
-/

namespace EmulatorHost

variable {σ τ : Type}

/-! ## Void operations -/

/-- Whether an operation is void where the session stands: it needs a session that runs, or one that takes
live input, and this one does not. -/
def RigOp.isVoid (s : Session) : RigOp σ → Bool
  | session .reset => !s.isRunning
  | session (.apply _) => !s.isLive
  | session .step => !s.isRunning
  | session _ => false
  | tick _ => !s.isRunning
  | refresh _ => !s.isRunning
  | stop => false

theorem Act.skip_apply {α : Type} {c : σ → Bool} {x : σ → Act σ α} {a : α} {w : σ} (skip : c w = false) :
    (get >>= fun w => if c w = true then x w else pure a : Act σ α) w = .ok a w := by
  rw [bind_apply]
  change (if c w = true then x w else pure a : Act σ α) w = _
  rw [skip]
  rfl

theorem Op.after_of_void (core : Core σ) {op : Op} {m : Machine σ}
    (void : (RigOp.session op : RigOp σ).isVoid m.session = true) : (op.act core).after m = m := by
  cases op with
  | reset =>
    have paused : m.session.isRunning = false := by simpa [RigOp.isVoid] using void
    rw [act, Act.after_map, Session.reset]
    exact Act.after_of_ok (Act.skip_apply (c := fun m : Machine σ => m.session.isRunning) paused)
  | apply e =>
    have dead : m.session.isLive = false := by simpa [RigOp.isVoid] using void
    rw [act, Act.after_map, Session.apply]
    exact Act.after_of_ok (Act.skip_apply (c := fun m : Machine σ => m.session.isLive) dead)
  | step =>
    have paused : m.session.isRunning = false := by simpa [RigOp.isVoid] using void
    rw [act, Act.after_map, Session.step]
    exact Act.after_of_ok (Act.skip_apply (c := fun m : Machine σ => m.session.isRunning) paused)
  | _ => cases void

theorem Scheduler.view_tick_of_paused {f : σ → τ} (core : Core σ) {clock : Clock σ}
    (keeps : Act.Keeps f clock.now) {r : Rig σ} (paused : r.machine.session.isRunning = false) :
    ((tick core clock).after r).view f = r.view f := by
  have unseen (r : Rig σ) : (r.inWorld (clock.now.after r.machine.world)).view f = r.view f := by
    rw [Rig.view, Machine.view, Rig.inWorld_world, keeps]
    rfl
  cases awake : r.scheduler.stopped with
  | true => rw [Act.after_of_ok (tick_idle core clock awake)]
  | false =>
    cases read : clock.now r.machine.world with
    | error p v =>
      rw [tick_eq, Act.after_of_error (tickBy_of_panic (Session.step core) clock awake read),
        ← Act.after_of_error read, unseen]
    | ok now v =>
      have waits : (r.inWorld v).paced (Session.step core) now = r.inWorld v := by
        unfold Rig.paced Rig.attempts
        rw [Rig.inWorld_session, paused]
        rfl
      rw [tick_eq, after_tickBy _ clock awake read, waits, unseen, ← Act.after_of_ok read, unseen]

/-- **A void operation changes nothing** but what only a clock sees. -/
theorem RigOp.view_of_void {f : σ → τ} (core : Core σ) {op : RigOp σ} {r : Rig σ}
    (void : op.isVoid r.machine.session = true) (keeps : ∀ clock, op = .tick clock → Act.Keeps f clock.now) :
    ((op.act core).after r).view f = r.view f := by
  cases op with
  | session op => rw [act, Act.after_map, Rig.onMachine, Act.after_within, Op.after_of_void core void]
  | tick clock =>
    have paused : r.machine.session.isRunning = false := by simpa [isVoid] using void
    rw [act, Act.after_map, Scheduler.view_tick_of_paused core (keeps clock rfl) paused]
  | refresh renderer =>
    have paused : r.machine.session.isRunning = false := by simpa [isVoid] using void
    rw [act, Act.after_map, Act.after_of_ok (Scheduler.refresh_idle core renderer (.inr paused))]
  | stop => cases void

theorem RigOp.isVoid_aside {κ : Type} (s : Session) (op : RigOp σ) :
    (op.aside : RigOp (σ × κ)).isVoid s = op.isVoid s := by
  cases op with
  | session op => cases op <;> rfl
  | _ => rfl

theorem RigOp.calls_of_void (core : Core σ) {op : RigOp σ} {r : Rig σ}
    (void : op.isVoid r.machine.session = true) : r.calls core [op] = [] := by
  have same : ((op.aside.act core.traced).after r.traced).view Prod.snd = r.traced.view Prod.snd := by
    have void : (op.aside : RigOp (Traced σ)).isVoid r.traced.machine.session = true :=
      (op.isVoid_aside _).trans void
    refine op.aside.view_of_void core.traced void fun clock is => ?_
    cases op with
    | tick clock =>
      cases is
      exact clock.now.aside_keeps
    | session op => cases is
    | refresh renderer => cases is
    | stop => cases is
  exact congrArg (fun r => r.machine.world) same

/-! ## Runs -/

namespace Rig

/-- The operations of a run, each with the rig that it finds, the first one first. -/
def history (core : Core σ) : List (RigOp σ) → Rig σ → List (RigOp σ × Rig σ)
  | [], _ => []
  | op :: ops, r => (op, r) :: history core ops ((op.act core).after r)

/-- The history of a run without its void operations. -/
def effective (core : Core σ) (ops : List (RigOp σ)) (r : Rig σ) : List (RigOp σ × Rig σ) :=
  (history core ops r).filter fun e => !e.1.isVoid e.2.machine.session

/-- What is left of a run without its void operations, every clock showing what it showed in the run. -/
def kept (core : Core σ) (ops : List (RigOp σ)) (r : Rig σ) : List (RigOp (σ × Nat)) :=
  (effective core ops r).map fun e => e.1.given core e.2

/-- What is seen of an operation of a run: its reply, and the rigs before and after it, as far as `f` sees. -/
def passage (core : Core σ) (f : σ → τ) (e : RigOp σ × Rig σ) : Except Panic Reply × Rig τ × Rig τ :=
  ((e.1.reply core).answer e.2, e.2.view f, ((e.1.act core).after e.2).view f)

variable {f : σ → τ} {core : Core σ}

theorem Like.view_eq {r : Rig σ} {q : Rig (σ × Nat)} (like : Rig.Like (Counted f 0) Eq r q) :
    q.view (f ∘ Prod.fst) = r.view f := by
  obtain ⟨session, world, kept⟩ := like
  obtain ⟨scheduler, journal⟩ := Prod.mk.inj kept
  rw [view, view, Machine.view, Machine.view, session, scheduler, journal, world.1]
  rfl

theorem Like.of_view {r s : Rig σ} {q : Rig (σ × Nat)} (like : Rig.Like (Counted f 0) Eq r q)
    (same : s.view f = r.view f) : Rig.Like (Counted f 0) Eq s q := by
  obtain ⟨session, world, kept⟩ := like
  have seen : s.machine.session = r.machine.session := congrArg (fun r => r.machine.session) same
  have scheduler : s.scheduler = r.scheduler := congrArg (fun r => r.scheduler) same
  have journal : s.machine.journal = r.machine.journal := congrArg (fun r => r.machine.journal) same
  have part : f s.machine.world = f r.machine.world := congrArg (fun r => r.machine.world) same
  exact ⟨seen.trans session, ⟨part.trans world.1, world.2⟩, by rw [scheduler, journal]; exact kept⟩

theorem run_effective (agrees : Core.Agrees (fun w v => f w = f v) core core) (ops : List (RigOp σ))
    (beside : ∀ op ∈ ops, op.Beside f) {r : Rig σ} {q : Rig (σ × Nat)}
    (like : Rig.Like (Counted f 0) Eq r q) :
    (history core.aside (kept core ops r) q).map (passage core.aside (f ∘ Prod.fst)) =
        (effective core ops r).map (passage core f) ∧
      Rig.Like (Counted f 0) Eq (run core ops r) (run core.aside (kept core ops r) q) ∧
      q.calls core.aside (kept core ops r) = r.calls core ops := by
  induction ops generalizing r q with
  | nil => exact ⟨rfl, like, rfl⟩
  | cons op ops ih =>
    obtain ⟨this, rest⟩ := List.forall_mem_cons.mp beside
    cases void : op.isVoid r.machine.session with
    | true =>
      have skipped : effective core (op :: ops) r = effective core ops ((op.act core).after r) := by
        unfold effective
        rw [history, List.filter_cons_of_neg (by simp [void])]
      have same : ((op.act core).after r).view f = r.view f :=
        op.view_of_void core void fun clock is => by subst is; exact this
      have later := ih rest (like.of_view same)
      rw [kept, skipped, calls_cons, RigOp.calls_of_void core void, List.nil_append, run_cons]
      exact later
    | false =>
      have taken : effective core (op :: ops) r =
          (op, r) :: effective core ops ((op.act core).after r) := by
        unfold effective
        rw [history, List.filter_cons_of_pos (by simp [void])]
      have m := RigOp.given_matches core this like
      obtain ⟨answer, after⟩ := m.reply_like agrees.counted agrees.counted like
      rw [RigOp.after_reply, RigOp.after_reply] at after
      have first := m.calls_eq agrees.counted agrees.counted like
      obtain ⟨later, left, calls⟩ := ih rest after
      rw [kept, taken, List.map_cons, List.map_cons, history, List.map_cons, calls_cons, calls_cons core op,
        run_cons, run_cons]
      refine ⟨?_, left, ?_⟩
      · rw [← later]
        unfold passage
        dsimp only
        rw [answer, ← like.view_eq, ← after.view_eq]
        rfl
      · rw [first, ← calls]
        rfl

/-- **A refused image leaves an event** and nothing else in the session and the scheduler. -/
theorem refused_loadRom (core : Core σ) (rom : ByteArray) (r : Rig σ) {e : LoadError}
    (refused : ((RigOp.session (.loadRom rom)).reply core).answer r = .ok (.answered (.loaded (.error e)))) :
    e = ⟨rom.size⟩ ∧
      (((RigOp.session (.loadRom rom)).act core).after r).machine.session =
        { r.machine.session with events := r.machine.session.events ++ [.loadFailed rom.size] } ∧
      (((RigOp.session (.loadRom rom)).act core).after r).scheduler = r.scheduler := by
  rw [RigOp.reply, Act.answer_map, onMachine, Act.answer_within] at refused
  rw [RigOp.act, Act.after_map, onMachine, Act.after_within]
  have performs := (Op.loadRom rom).performs core r.machine
  refine and_assoc.mp ⟨?_, rfl⟩
  dsimp only
  generalize r.machine.calls core [.loadRom rom] = xs at performs
  generalize (Op.act core (.loadRom rom)).answer r.machine = answer at refused performs
  generalize ((Op.act core (.loadRom rom)).after r.machine).session = left at performs ⊢
  cases performs with
  | loadRefused rom =>
    cases refused
    exact ⟨rfl, rfl⟩
  | loadPanicked rom p => cases refused
  | @loadAccepted rom xs o t h => cases o <;> cases refused

/-- **Void operations leave no trace.** Let `f` see all of the world that the core and the renderers go by, but
nothing of the clocks. Take out of a run what needs a session that runs, or one that takes live input, where
there is none, and give the other ticks the readings they had. Then the core gets the same calls, and every
operation that is left answers the same, and finds and leaves the same session, scheduler and journal, and the
same of the world. And an image that is refused leaves nothing but an event. -/
theorem run_without_void (agrees : Core.Agrees (fun w v => f w = f v) core core) (ops : List (RigOp σ))
    (beside : ∀ op ∈ ops, op.Beside f) (r : Rig σ) :
    let q := r.view (·, 0)
    (q.calls core.aside (kept core ops r) = r.calls core ops ∧
      (history core.aside (kept core ops r) q).map (passage core.aside (f ∘ Prod.fst)) =
        (effective core ops r).map (passage core f) ∧
      (q.run core.aside (kept core ops r)).view (f ∘ Prod.fst) = (r.run core ops).view f) ∧
    ∀ rom e, ((RigOp.session (.loadRom rom)).reply core).answer r = .ok (.answered (.loaded (.error e))) →
      e = ⟨rom.size⟩ ∧
        (((RigOp.session (.loadRom rom)).act core).after r).machine.session =
          { r.machine.session with events := r.machine.session.events ++ [.loadFailed rom.size] } ∧
        (((RigOp.session (.loadRom rom)).act core).after r).scheduler = r.scheduler := by
  have like : Rig.Like (Counted f 0) Eq r (r.view (·, 0)) := ⟨rfl, ⟨rfl, rfl⟩, rfl⟩
  obtain ⟨same, left, calls⟩ := run_effective agrees ops beside like
  exact ⟨⟨calls, same, left.view_eq⟩, fun rom e => refused_loadRom core rom r⟩

/-- A clock that moves on by seven with every reading. -/
def sevens : Clock (σ × Nat) where
  now w := .ok (.ofNanos (7 * UInt64.ofNat w.2)) (w.1, w.2 + 1)
  sleep _ := return

/-- A rig whose core panics in its second reset and then refuses an image. -/
def interrupted : Rig (List (Option Fault) × Nat) :=
  ⟨.fresh Core.faulty.aside .packed
      ([none, none, none, none, some (.panic .other), some (.failure ⟨[]⟩)], 0),
    .fresh ⟨.ofNanos 20, .frame⟩⟩

/-- Operations before there is a game, and after a reset that panicked. -/
def hasty : List (RigOp (List (Option Fault) × Nat)) :=
  [.session (.apply (.press .a)), .tick sevens, .session .reset, .session (.loadRom .empty), .tick sevens,
    .session .reset, .tick sevens, .session .step, .session (.apply (.press .a)), .session .reset]

/-- An image that is refused, one that is accepted, and input while a log is played. -/
def patient : List (RigOp (List (Option Fault) × Nat)) :=
  [.session (.loadRom .empty), .session (.loadRom .empty), .session (.play ⟨[⟨1, .press .b⟩]⟩),
    .session (.apply (.press .a)), .tick sevens]

/-- The world of a core that is about to refuse an image. -/
def refusing : List (Option Fault) × Nat := ([some (.failure ⟨[]⟩)], 0)

theorem run_without_void_hasty :
    let core := Core.faulty.aside
    let ops := hasty ++ patient
    (effective core ops interrupted).length = 7 ∧
      (interrupted.view (·, 0)).calls core.aside (kept core ops interrupted) = interrupted.calls core ops ∧
      ((interrupted.inWorld refusing).run core [.session (.loadRom .empty)]).machine.session.events =
        [.loadFailed 0] := by
  intro core ops
  have agrees : Core.Agrees (fun w v => w.1 = v.1) core core := Core.faulty.aside_projects.alike
  have beside : ∀ op ∈ ops, op.Beside Prod.fst := by
    intro op member
    simp only [ops, hasty, patient, List.mem_append, List.mem_cons, List.not_mem_nil, or_false] at member
    rcases member with
      (rfl | rfl | rfl | rfl | rfl | rfl | rfl | rfl | rfl | rfl) | rfl | rfl | rfl | rfl | rfl
    all_goals first | trivial | exact fun _ => rfl
  obtain ⟨⟨calls, -⟩, -⟩ := run_without_void agrees ops beside interrupted
  obtain ⟨-, refused⟩ := run_without_void agrees [] (by simp) (interrupted.inWorld refusing)
  obtain ⟨-, left, -⟩ := refused .empty ⟨0⟩ rfl
  exact ⟨by decide, calls, congrArg Session.events left⟩

end Rig

end EmulatorHost
