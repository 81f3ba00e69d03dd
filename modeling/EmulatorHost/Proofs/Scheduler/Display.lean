import EmulatorHost.Proofs.Scheduler.Sights

/-!
# The picture that is kept

A scheduler keeps the last picture it handed over. It makes room for a picture before it knows that there is
one, so that a refresh that finds none may leave the room behind.

* `RigOp.presentFails`: a refresh that ends in a fault before there is a picture.
* `Rig.Displays`: what an operation can do to the picture that is kept; **`RigOp.displays`**.
* `Rig.Displayed`: what is kept after a run; **`Rig.run_displayed`**.
* **`Rig.display_exact`**: it is the last picture handed over, unless all there ever was is room for one.
-/

namespace EmulatorHost

variable {σ : Type}

/-- The bytes of a picture. -/
def pictureSize : Nat := (FrameBuffer.standard 0).displaySize

/-- The room for a picture. -/
def blank : ByteArray := FrameBuffer.filled pictureSize 255

theorem size_blank : blank.size = pictureSize := FrameBuffer.size_filled _ _

theorem blank_ne_empty : blank ≠ .empty := by
  intro same
  have size := size_blank
  rw [same] at size
  cases size

theorem resized_empty : FrameBuffer.resized .empty pictureSize 255 = blank := by
  have positive : ¬ pictureSize ≤ ByteArray.empty.size := by decide
  rw [FrameBuffer.resized, if_neg positive]
  rfl

theorem getD_getLast?_eq_iff {α : Type} (l : List α) (a b : α) :
    l.getLast?.getD a = l.getLast?.getD b ↔ l ≠ [] ∨ a = b := by
  cases last : l.getLast? with
  | none =>
    have none : l = [] := List.getLast?_eq_none_iff.mp last
    simp [none]
  | some x =>
    have some : l ≠ [] := List.ne_nil_of_mem (List.mem_of_getLast? last)
    simp [some]

/-! ## One operation -/

/-- Whether an operation is a refresh that ends in a fault before there is a picture to hand over. -/
def RigOp.presentFails (core : Core σ) (r : Rig σ) : RigOp σ → Bool
  | refresh renderer => Reply.isFaulty (((refresh renderer).reply core).answer r) &&
      (r.pictures core [.refresh renderer]).isEmpty
  | tick _ => false
  | session _ => false
  | stop => false

/-- What an operation can do to the picture that is kept: the pictures it hands over, whether it fails to
present one, and what is kept after it. -/
inductive Rig.Displays (r : Rig σ) : List ByteArray → Bool → ByteArray → Prop
  | kept : Displays r [] false r.scheduler.display
  | cleared : Displays r [] true r.canvas
  | shown {picture : ByteArray} (size : picture.size = pictureSize) : Displays r [picture] false picture

namespace Rig

theorem Displays.eq_canvas {r : Rig σ} {pictures : List ByteArray} {display : ByteArray}
    (h : r.Displays pictures true display) : display = r.canvas := by
  cases h
  rfl

variable (core : Core σ) (r : Rig σ)

theorem pictures_session (op : Op) : r.pictures core [.session op] = [] := by
  rw [pictures, sights_singleton, RigOp.sights_session]
  rfl

theorem pictures_tick (clock : Clock σ) : r.pictures core [.tick clock] = [] := by
  rw [pictures, sights_singleton]
  cases awake : r.scheduler.stopped with
  | true =>
    rw [RigOp.sights_tick_stopped core r clock awake]
    rfl
  | false =>
    rw [RigOp.sights_tick core clock awake]
    cases clock.now r.machine.world with
    | error p v => rfl
    | ok now v =>
      dsimp only
      cases clock.now ((r.inWorld v).paced (Session.step core) now).machine.world <;> rfl

variable {r}

theorem pictures_refresh_idle (renderer : Renderer σ)
    (idle : r.scheduler.stopped = true ∨ r.machine.session.isRunning = false) :
    r.pictures core [.refresh renderer] = [] := by
  rw [pictures, sights_singleton, RigOp.sights_refresh_idle core renderer idle]
  rfl

theorem pictures_refresh_active (renderer : Renderer σ) (awake : r.scheduler.stopped = false)
    (running : r.machine.session.isRunning = true) :
    r.pictures core [.refresh renderer] = (r.shot core).toOption.toList := by
  rw [pictures, sights_singleton, RigOp.sights_refresh core renderer awake running]
  cases r.shot core <;> rfl

end Rig

namespace RigOp

variable (core : Core σ)

theorem presentFails_refresh (renderer : Renderer σ) {r : Rig σ} (awake : r.scheduler.stopped = false)
    (running : r.machine.session.isRunning = true) :
    (refresh renderer).presentFails core r = (r.shot core).toOption.isNone := by
  have refreshed := Scheduler.refresh_eq core renderer awake running
  rw [presentFails, Rig.pictures_refresh_active core renderer awake running, reply, Act.answer_map]
  cases taken : r.shot core with
  | error f =>
    rw [taken] at refreshed
    rw [Act.answer_of_ok refreshed]
    rfl
  | ok picture => exact Bool.and_false _

/-- **An operation keeps the picture, or hands over a new one, or clears it as it fails to present one.** -/
theorem displays (op : RigOp σ) (r : Rig σ) : r.Displays (r.pictures core [op]) (op.presentFails core r)
    ((op.act core).after r).scheduler.display := by
  cases op with
  | session op =>
    rw [Rig.pictures_session, act, Act.after_map, Rig.onMachine, Act.after_within]
    exact .kept
  | tick clock =>
    have kept : ((Scheduler.tick core clock).after r).scheduler.display = r.scheduler.display :=
      Scheduler.tick_display core clock r
    rw [Rig.pictures_tick, act, Act.after_map, kept]
    exact .kept
  | stop => exact .kept
  | refresh renderer =>
    rw [act, Act.after_map]
    rcases r.idle_or_active with idle | ⟨awake, running⟩
    · have skipped := Scheduler.refresh_idle core renderer idle
      have fine : (refresh renderer).presentFails core r = false := by
        rw [presentFails, reply, Act.answer_map, Act.answer_of_ok skipped]
        rfl
      rw [fine, Rig.pictures_refresh_idle core renderer idle, Act.after_of_ok skipped]
      exact .kept
    · have refreshed := Scheduler.refresh_eq core renderer awake running
      rw [presentFails_refresh core renderer awake running,
        Rig.pictures_refresh_active core renderer awake running]
      cases taken : r.shot core with
      | error f =>
        rw [taken] at refreshed
        rw [Act.after_of_ok refreshed]
        exact .cleared
      | ok picture =>
        have display : ((Scheduler.refresh core renderer).after r).scheduler.display = picture := by
          rw [taken] at refreshed
          dsimp only at refreshed
          split at refreshed
          all_goals
            rw [Act.after_of_ok refreshed]
            rfl
        rw [display]
        exact .shown ((Rig.size_shot taken).trans (Session.displaySize_frameBuffer _))

end RigOp

/-! ## Runs -/

namespace Rig

/-- How many refreshes of a run end in a fault before there is a picture. -/
def presentFaults (core : Core σ) : List (RigOp σ) → Rig σ → Nat
  | [], _ => 0
  | op :: ops, r => (op.presentFails core r).toNat + presentFaults core ops ((op.act core).after r)

/-- What is kept after some pictures were handed over, and so many refreshes failed to present one: the last
picture, or else at most the room for one. -/
structure Displayed (past : List ByteArray) (failed : Nat) (r : Rig σ) : Prop where
  size : ∀ picture ∈ past, picture.size = pictureSize
  display : r.scheduler.display = past.getLast?.getD (if failed = 0 then .empty else blank)

namespace Displayed

variable {past : List ByteArray} {failed : Nat} {r : Rig σ}

theorem canvas_eq (h : r.Displayed past failed) : r.canvas = past.getLast?.getD blank := by
  rw [canvas, Session.displaySize_frameBuffer, ← pictureSize, h.display]
  cases last : past.getLast? with
  | none =>
    rw [Option.getD_none, Option.getD_none]
    split_ifs
    · exact resized_empty
    · exact FrameBuffer.resized_of_size size_blank 255
  | some picture => exact FrameBuffer.resized_of_size (h.size picture (List.mem_of_getLast? last)) 255

/-- A refresh that fails to present a picture changes what is kept only if that was nothing. -/
theorem canvas_eq_display_iff (h : r.Displayed past failed) :
    r.canvas = r.scheduler.display ↔ past ≠ [] ∨ failed ≠ 0 := by
  rw [h.canvas_eq, h.display, getD_getLast?_eq_iff]
  split_ifs with none <;> simp [none, blank_ne_empty]

theorem display_eq_iff (h : r.Displayed past failed) :
    r.scheduler.display = past.getLast?.getD .empty ↔ past ≠ [] ∨ failed = 0 := by
  rw [h.display, getD_getLast?_eq_iff]
  split_ifs with none <;> simp [none, blank_ne_empty]

theorem of_displays {pictures : List ByteArray} {fails : Bool} {q : Rig σ} (h : r.Displayed past failed)
    (next : r.Displays pictures fails q.scheduler.display) :
    q.Displayed (past ++ pictures) (failed + fails.toNat) := by
  generalize same : q.scheduler.display = display at next
  cases next with
  | kept =>
    rw [List.append_nil]
    exact ⟨h.size, same.trans h.display⟩
  | cleared =>
    rw [List.append_nil]
    exact ⟨h.size, same.trans h.canvas_eq⟩
  | shown size =>
    refine ⟨fun p hp => ?_, ?_⟩
    · rcases List.mem_append.mp hp with hp | hp
      · exact h.size p hp
      · rwa [List.mem_singleton.mp hp]
    · rw [same, List.getLast?_concat]
      rfl

end Displayed

variable (core : Core σ)

theorem run_displayed {past : List ByteArray} {failed : Nat} (ops : List (RigOp σ)) (r : Rig σ)
    (h : r.Displayed past failed) :
    (run core ops r).Displayed (past ++ r.pictures core ops) (failed + r.presentFaults core ops) := by
  induction ops generalizing r past failed with
  | nil => simpa [pictures, sights, presentFaults] using h
  | cons op ops ih =>
    rw [pictures_cons, presentFaults, ← List.append_assoc, ← Nat.add_assoc]
    exact ih _ (h.of_displays (op.displays core r))

/-- **What is kept is the last picture handed over.** After any run: the last one, or if there was none yet,
nothing, unless a refresh has ended in a fault before there was a picture; then it is the room for one, all of it
255. And such a refresh leaves what is kept alone, unless it is the first one and no picture was handed over
before. -/
theorem display_exact (m : Machine σ) (c : Cadence) (ops : List (RigOp σ)) :
    let start : Rig σ := ⟨m, .fresh c⟩
    let r := run core ops start
    let shown := start.pictures core ops
    let failed := start.presentFaults core ops
    r.scheduler.display = shown.getLast?.getD (if failed = 0 then .empty else blank) ∧
      (r.scheduler.display = shown.getLast?.getD .empty ↔ shown ≠ [] ∨ failed = 0) ∧
      ∀ renderer, (RigOp.refresh renderer).presentFails core r = true →
        ((((RigOp.refresh renderer).act core).after r).scheduler.display = r.scheduler.display ↔
          shown ≠ [] ∨ failed ≠ 0) := by
  intro start r shown failed
  have fresh : start.Displayed [] 0 := ⟨nofun, rfl⟩
  have displayed : r.Displayed shown failed := by
    simpa using run_displayed core ops start fresh
  refine ⟨displayed.display, displayed.display_eq_iff, fun renderer fails => ?_⟩
  have result := RigOp.displays core (.refresh renderer) r
  rw [fails] at result
  rw [result.eq_canvas]
  exact displayed.canvas_eq_display_iff

/-- A renderer that shows nothing. -/
def darkScreen : Renderer σ := ⟨fun _ _ _ => return .ok ()⟩

theorem presentFails_lateGame :
    (RigOp.refresh darkScreen : RigOp (List (Option Fault))).presentFails .faulty lateGame = true := by
  rw [RigOp.presentFails_refresh .faulty darkScreen rfl rfl]
  rfl

theorem display_exact_lateGame :
    (RigOp.refresh darkScreen : RigOp (List (Option Fault))).presentFails .faulty lateGame = true ∧
      (((RigOp.refresh darkScreen).act .faulty).after lateGame).scheduler.display ≠
        lateGame.scheduler.display := by
  have game : run .faulty [.session (.loadRom .empty)] ⟨lateStart.machine, .fresh lateStart.scheduler.cadence⟩ =
      lateGame := rfl
  have fails := presentFails_lateGame
  obtain ⟨-, -, changes⟩ := display_exact .faulty lateStart.machine lateStart.scheduler.cadence
    [.session (.loadRom .empty)]
  rw [game] at changes
  refine ⟨fails, fun same => ?_⟩
  rcases (changes darkScreen fails).mp same with shown | failed
  · exact shown rfl
  · exact failed rfl

/-- The first refresh finds no picture and hands none over, and yet something is kept. -/
theorem display_without_picture :
    (RigOp.refresh darkScreen).presentFails .faulty lateGame = true ∧ lateGame.scheduler.display = .empty ∧
      lateStart.pictures .faulty [.session (.loadRom .empty), .refresh darkScreen] = [] ∧
      (run .faulty [.session (.loadRom .empty), .refresh darkScreen] lateStart).scheduler.display ≠ .empty := by
  have fails := presentFails_lateGame
  have result := RigOp.displays .faulty (.refresh darkScreen) lateGame
  rw [fails] at result
  refine ⟨fails, rfl, ?_, fun same => ?_⟩
  · rw [pictures_cons, pictures_session, List.nil_append, pictures_refresh_active .faulty darkScreen rfl rfl]
    rfl
  · have size : lateGame.canvas.size = pictureSize := FrameBuffer.size_resized _ _ _
    rw [run_cons, run_cons, run_nil] at same
    rw [lateGame, run_cons, run_nil] at result size
    rw [← result.eq_canvas, same] at size
    cases size

end Rig

end EmulatorHost
