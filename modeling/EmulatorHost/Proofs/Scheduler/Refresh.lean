import EmulatorHost.Proofs.Picture.Expansion
import EmulatorHost.Proofs.Scheduler.Operation

/-!
# What a refresh does

* `Rig.shot`: the picture that a refresh takes of the core, or what goes wrong before there is one.
* **`Scheduler.refresh_eq`**: a refresh takes the picture, keeps it, and hands it to the renderer.
* `Scheduler.refresh_idle`: it does nothing once the scheduler has stopped, or while the session does not run.
* **`RigOp.framed`**: what is kept of a picture is nothing or has the size of one.
-/

namespace EmulatorHost

variable {σ : Type}

namespace Rig

/-- The rig with another picture kept. -/
def showing (picture : ByteArray) (r : Rig σ) : Rig σ :=
  r.mapScheduler fun s => { s with display := picture }

@[simp] theorem showing_machine (picture : ByteArray) (r : Rig σ) :
    (r.showing picture).machine = r.machine := rfl

@[simp] theorem showing_display (picture : ByteArray) (r : Rig σ) :
    (r.showing picture).scheduler.display = picture := rfl

theorem idle_or_active (r : Rig σ) :
    (r.scheduler.stopped = true ∨ r.machine.session.isRunning = false) ∨
      r.scheduler.stopped = false ∧ r.machine.session.isRunning = true := by
  cases r.scheduler.stopped <;> cases r.machine.session.isRunning <;> simp

/-- The buffer that a refresh expands the picture into. -/
def canvas (r : Rig σ) : ByteArray :=
  FrameBuffer.resized r.scheduler.display r.machine.session.frameBuffer.displaySize 255

/-- The picture that a refresh takes, or what goes wrong before there is one. -/
def shot (core : Core σ) (r : Rig σ) : Except Fault ByteArray :=
  match core.memory.answer r.machine.world with
  | .error p => .error (.panic p)
  | .ok memory => (r.machine.session.frameBuffer.picture? memory).mapError fun e => .failure ⟨[e.message]⟩

theorem shot_of_ok {core : Core σ} {r : Rig σ} {memory : ByteArray}
    (h : core.memory.answer r.machine.world = .ok memory) :
    r.shot core =
      (r.machine.session.frameBuffer.picture? memory).mapError fun e => .failure ⟨[e.message]⟩ := by
  rw [shot, h]

theorem size_shot {core : Core σ} {r : Rig σ} {picture : ByteArray} (h : r.shot core = .ok picture) :
    picture.size = r.machine.session.frameBuffer.displaySize := by
  unfold shot at h
  split at h
  · cases h
  · next memory _ =>
    cases taken : r.machine.session.frameBuffer.picture? memory with
    | error e =>
      rw [taken] at h
      cases h
    | ok shown =>
      rw [taken] at h
      rw [← Except.ok.inj h]
      exact FrameBuffer.size_of_picture? taken

/-- The rig once the core has been asked for its memory. -/
def exposed (core : Core σ) (r : Rig σ) : Rig σ := r.inWorld (core.memory.after r.machine.world)

end Rig

namespace Scheduler

variable (core : Core σ) (renderer : Renderer σ) {r : Rig σ}

theorem display_of_error {m : Machine σ} {p : Panic} {v : σ} (h : core.memory m.world = .error p v)
    (out : ByteArray) : Session.display core out m = .error p { m with world := v } := by
  unfold Session.display
  rw [Act.bind_apply]
  change (Session.call core.memory >>= _ : Act (Machine σ) (Except FrameBufferError ByteArray)) m = _
  rw [Act.bind_apply, Session.call, Act.within, h]

theorem display_of_ok {m : Machine σ} {memory : ByteArray} {v : σ} (h : core.memory m.world = .ok memory v)
    (out : ByteArray) :
    Session.display core out m = match m.session.frameBuffer.writeDisplay memory out with
      | .error e => .ok (.error e) { m with world := v }
      | .ok (.whole picture) => .ok (.ok picture) { m with world := v }
      | .ok (.cut _) => .error (.text "the picture window ran out") { m with world := v } := by
  unfold Session.display
  rw [Act.bind_apply]
  change (Session.call core.memory >>= _ : Act (Machine σ) (Except FrameBufferError ByteArray)) m = _
  rw [Act.bind_apply, Session.call, Act.within, h]
  dsimp only
  rcases m.session.frameBuffer.writeDisplay memory out with _ | _ | _ <;> rfl

theorem present_apply (r : Rig σ) :
    (present core).guarded (r.showing r.canvas) = match r.shot core with
      | .error f => .ok (.error f) ((r.exposed core).showing r.canvas)
      | .ok picture => .ok (.ok ()) ((r.exposed core).showing picture) := by
  have asked : present core (r.showing r.canvas) =
      match Session.display core r.canvas r.machine with
      | .ok (.ok picture) m => .ok (.ok ()) (Rig.showing picture ⟨m, r.scheduler⟩)
      | .ok (.error e) m => .ok (.error ⟨[e.message]⟩) (Rig.showing r.canvas ⟨m, r.scheduler⟩)
      | .error p m => .error p (Rig.showing r.canvas ⟨m, r.scheduler⟩) := by
    unfold present
    rw [Act.bind_apply]
    change (Rig.onMachine (Session.display core r.canvas) >>= _ : Act (Rig σ) (Except Failure Unit)) _ = _
    rw [Act.bind_apply, Rig.onMachine, Act.within, Rig.showing_machine]
    rcases Session.display core r.canvas r.machine with ⟨_ | _, _⟩ | _ <;> rfl
  rw [Act.guarded, asked, Rig.exposed]
  cases answered : core.memory r.machine.world with
  | error p v =>
    rw [display_of_error core answered, Rig.shot, Act.answer_of_error answered, Act.after_of_error answered]
    rfl
  | ok memory v =>
    have room : r.canvas.size = r.machine.session.frameBuffer.displaySize := FrameBuffer.size_resized _ _ _
    rw [display_of_ok core answered, Rig.shot_of_ok (Act.answer_of_ok answered), Act.after_of_ok answered,
      FrameBuffer.writeDisplay_eq (Nat.le_refl 3) room]
    cases r.machine.session.frameBuffer.picture? memory <;> rfl

/-- **A refresh takes the picture, keeps it, and hands it to the renderer.** -/
theorem refresh_eq (awake : r.scheduler.stopped = false) (running : r.machine.session.isRunning = true) :
    refresh core renderer r = match r.shot core with
      | .error f => .ok ⟨false, some f.message⟩ (((r.exposed core).showing r.canvas).faulted "present" f)
      | .ok picture =>
        let fb := r.machine.session.frameBuffer
        let q := (r.exposed core).showing picture
        let paint := renderer.paint picture fb.width fb.height
        match Act.caught (paint.answer q.machine.world) with
        | .error f => .ok ⟨false, some f.message⟩ ((q.inWorld (paint.after q.machine.world)).faulted "paint" f)
        | .ok () => .ok ⟨true, none⟩ (q.inWorld (paint.after q.machine.world)) := by
  unfold refresh
  rw [Act.bind_apply]
  change (if (r.scheduler.stopped || !r.machine.session.isRunning) = true then _ else _ :
    Act (Rig σ) RefreshReport) r = _
  rw [awake, running, if_neg nofun, Act.bind_apply, Act.modify_apply]
  change (Act.guarded (present core) >>= _ : Act (Rig σ) RefreshReport) (r.showing r.canvas) = _
  rw [Act.bind_apply, present_apply]
  cases r.shot core with
  | error f => rfl
  | ok picture =>
    dsimp only
    rw [Act.bind_apply]
    change (Act.guarded (Rig.call _) >>= _ : Act (Rig σ) RefreshReport) _ = _
    rw [Act.bind_apply, Act.guarded_apply, Rig.call, Rig.onMachine, Act.answer_within, Act.after_within,
      Session.call, Act.answer_within, Act.after_within, Rig.showing_display]
    cases Act.caught _ <;> rfl

theorem refresh_idle (idle : r.scheduler.stopped = true ∨ r.machine.session.isRunning = false) :
    refresh core renderer r = .ok ⟨false, none⟩ r := by
  have skip : (r.scheduler.stopped || !r.machine.session.isRunning) = true := by simpa using idle
  unfold refresh
  rw [Act.bind_apply]
  change (if (r.scheduler.stopped || !r.machine.session.isRunning) = true then _ else _ :
    Act (Rig σ) RefreshReport) r = _
  rw [skip]
  rfl

theorem tick_display (clock : Clock σ) :
    Act.Keeps (fun r : Rig σ => r.scheduler.display) (tick core clock) := by
  have call {α : Type} (x : Act σ α) : Act.Keeps (fun r : Rig σ => r.scheduler.display) (Rig.call x) := by
    intro r
    rw [Rig.call, Rig.onMachine, Act.after_within]
  have attempt (now : Duration) :
      Act.Keeps (fun r : Rig σ => r.scheduler.display) (attempt core now) := by
    unfold attempt
    refine .andThen (fun _ => rfl) fun _ => .andThen (fun r => ?_) fun o => ?_
    · rw [Act.after_guarded, Rig.onMachine, Act.after_within]
    · cases o with
      | ok stepped => exact .of_pure _
      | error f => exact .andThen (fun _ => rfl) fun _ => .of_pure _
  unfold tick
  refine .andThen .of_get fun r => ?_
  split_ifs
  · exact .of_pure _
  · refine (call _).andThen fun now => .andThen .of_get fun r => ?_
    dsimp only
    split_ifs
    all_goals
      refine .andThen ?_ fun o => .andThen .of_get fun _ => (call _).andThen fun _ => ?_
      · first | exact attempt now | exact .of_pure _
      · cases o <;> exact .of_pure _

end Scheduler

/-! ## The size of a picture -/

theorem Session.displaySize_frameBuffer (s : Session) :
    s.frameBuffer.displaySize = (FrameBuffer.standard 0).displaySize := rfl

/-- What is kept of a picture is nothing, or has the size of one. -/
def Rig.Framed (r : Rig σ) : Prop :=
  r.scheduler.display.size = 0 ∨ r.scheduler.display.size = (FrameBuffer.standard 0).displaySize

theorem Rig.Framed.of_showing {r : Rig σ} {picture : ByteArray}
    (shown : r.scheduler.display = picture)
    (size : picture.size = (FrameBuffer.standard 0).displaySize) : r.Framed := by
  rw [Rig.Framed, shown]
  exact .inr size

theorem RigOp.framed (core : Core σ) (op : RigOp σ) {r : Rig σ} (h : r.Framed) :
    ((op.act core).after r).Framed := by
  cases op with
  | session op =>
    rw [RigOp.act, Act.after_map, Rig.onMachine, Act.after_within]
    exact h
  | tick clock =>
    have kept : ((Scheduler.tick core clock).after r).scheduler.display = r.scheduler.display :=
      Scheduler.tick_display core clock r
    rw [Rig.Framed, RigOp.act, Act.after_map, kept]
    exact h
  | refresh renderer =>
    rw [RigOp.act, Act.after_map]
    rcases r.idle_or_active with idle | ⟨awake, running⟩
    · rw [Act.after, Scheduler.refresh_idle core renderer idle]
      exact h
    · rw [Act.after, Scheduler.refresh_eq core renderer awake running]
      cases shot : r.shot core with
      | error f => exact .of_showing rfl (FrameBuffer.size_resized _ _ _)
      | ok picture =>
        have size := (Rig.size_shot shot).trans (Session.displaySize_frameBuffer _)
        dsimp only
        cases Act.caught _
        all_goals exact .of_showing rfl size
  | stop => exact h

end EmulatorHost
