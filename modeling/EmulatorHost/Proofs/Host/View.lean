import EmulatorHost.Proofs.Host.Noted
import EmulatorHost.Proofs.Scheduler.Pacing

/-!
# A host loop in another world

* `HostLoop.Corresponds`: two loops whose parties do the same in related worlds.
* **`HostLoop.run_like`**: such loops run alike.
* `HostLoop.aside`: the loop with something beside its world.
* `HostLoop.traced`, `HostLoop.calls`: the loop with the calls on its core written down.
* `HostLoop.counted`, `HostLoop.shown`: the loop with the pictures counted that its renderer took.
-/

namespace EmulatorHost

variable {σ τ : Type}

/-- From worlds related by `W`, the parties of two loops answer alike and leave related worlds. -/
structure HostLoop.Corresponds (W : σ → τ → Prop) (h : HostLoop σ) (g : HostLoop τ) : Prop where
  core : Core.Agrees W h.core g.core
  now {w : σ} {v : τ} (hw : W w v) : Act.Agrees W h.clock.now g.clock.now w v
  sleep (span : Duration) {w : σ} {v : τ} (hw : W w v) :
    Act.Agrees W (h.clock.sleep span) (g.clock.sleep span) w v
  paint (picture : ByteArray) (width height : Nat) {w : σ} {v : τ} (hw : W w v) :
    Act.Agrees W (h.renderer.paint picture width height) (g.renderer.paint picture width height) w v
  poll {w : σ} {v : τ} (hw : W w v) : Act.Agrees W h.input.poll g.input.poll w v
  stopRequested {w : σ} {v : τ} (hw : W w v) : h.stopRequested w = g.stopRequested v
  refreshInterval : h.refreshInterval = g.refreshInterval

namespace HostLoop

section Like

open Act.Agrees

variable {W : σ → τ → Prop} {h : HostLoop σ} {g : HostLoop τ} {r : Rig σ} {q : Rig τ}
  (agrees : HostLoop.Corresponds W h g)

include agrees

theorem stopping_like (like : Rig.Like W Eq r q) :
    Act.Agrees (Rig.Like W Eq) h.stopping g.stopping r q := by
  unfold stopping
  refine get_andThen ?_
  rw [agrees.stopRequested like.world]
  exact of_pure like _

theorem drain_like (fuel : Nat) (like : Rig.Like W Eq r q) :
    Act.Agrees (Rig.Like W Eq) (h.drain fuel) (g.drain fuel) r q := by
  induction fuel generalizing r q with
  | zero => exact of_pure like _
  | succ fuel ih =>
    unfold drain
    refine andThen (rigCall_like like (agrees.poll like.world)) fun event r q like => ?_
    cases event with
    | none => exact of_pure like _
    | some e =>
      exact andThen (onMachine_like (apply_like agrees.core like.machine e)) fun _ r q like => ih like

theorem tickTurn_like (s : LoopState) (like : Rig.Like W Eq r q) :
    Act.Agrees (Rig.Like W Eq) (h.tickTurn s) (g.tickTurn s) r q := by
  unfold tickTurn
  refine andThen (tick_like Scheduler.bond_eq agrees.core agrees.now like) fun report r q like => ?_
  dsimp only
  cases report.delay with
  | none => exact of_pure like _
  | some delay =>
    refine andThen (rigCall_like like (agrees.now like.world)) fun now r q like => ?_
    exact andThen (of_ofExcept like _) fun next r q like => of_pure like _

theorem tickIfDue_like (fuel : Nat) (now : Duration) (s : LoopState) (like : Rig.Like W Eq r q) :
    Act.Agrees (Rig.Like W Eq) (h.tickIfDue fuel now s) (g.tickIfDue fuel now s) r q := by
  unfold tickIfDue
  refine of_ite (fun _ => ?_) fun _ => of_pure like _
  refine andThen (drain_like agrees fuel like) fun dry r q like => ?_
  exact of_ite (fun _ => of_map _ (tickTurn_like agrees s like)) fun _ => of_pure like _

theorem showIfDue_like (now : Duration) (s : LoopState) (like : Rig.Like W Eq r q) :
    Act.Agrees (Rig.Like W Eq) (h.showIfDue now s) (g.showIfDue now s) r q := by
  unfold showIfDue
  refine of_ite (fun _ => ?_) fun _ => of_pure like _
  refine andThen (refresh_like agrees.core agrees.paint like) fun report r q like => ?_
  rw [agrees.refreshInterval]
  exact andThen (of_ofExcept like _) fun next r q like => of_pure like _

theorem wait_like (s : LoopState) (like : Rig.Like W Eq r q) :
    Act.Agrees (Rig.Like W Eq) (h.wait s) (g.wait s) r q := by
  unfold wait
  refine andThen (rigCall_like like (agrees.now like.world)) fun now r q like => ?_
  exact of_ite (fun _ => rigCall_like like (agrees.sleep _ like.world)) fun _ => of_pure like _

theorem refreshTurn_like (now : Duration) (s : LoopState) (like : Rig.Like W Eq r q) :
    Act.Agrees (Rig.Like W Eq) (h.refreshTurn now s) (g.refreshTurn now s) r q := by
  rw [refreshTurn_eq, refreshTurn_eq]
  refine andThen (showIfDue_like agrees now s like) fun s r q like => ?_
  exact andThen (wait_like agrees s like) fun _ r q like => of_pure like _

theorem turn_like (fuel : Nat) (s : LoopState) (like : Rig.Like W Eq r q) :
    Act.Agrees (Rig.Like W Eq) (h.turn fuel s) (g.turn fuel s) r q := by
  rw [turn_eq, turn_eq]
  refine andThen (rigCall_like like (agrees.now like.world)) fun now r q like => ?_
  refine andThen (tickIfDue_like agrees fuel now s like) fun ticked r q like => ?_
  rcases ticked with _ | s | stats
  · exact of_pure like _
  · refine andThen (stopping_like agrees like) fun asked r q like => ?_
    refine of_ite (fun _ => of_pure like _) fun _ => ?_
    exact andThen (refreshTurn_like agrees now s like) fun s r q like => of_pure like _
  · exact of_pure like _

theorem turns_like (fuel : Nat) (s : LoopState) (like : Rig.Like W Eq r q) :
    Act.Agrees (Rig.Like W Eq) (h.turns fuel s) (g.turns fuel s) r q := by
  induction fuel generalizing s r q with
  | zero => exact of_pure like _
  | succ fuel ih =>
    unfold turns
    refine andThen (stopping_like agrees like) fun asked r q like => ?_
    refine of_ite (fun _ => of_pure like _) fun _ => ?_
    refine andThen (turn_like agrees fuel s like) fun ended r q like => ?_
    rcases ended with _ | s | stats
    · exact of_pure like _
    · exact ih s like
    · exact of_pure like _

/-- **Loops whose parties do the same run alike.** -/
theorem run_like (fuel : Nat) (like : Rig.Like W Eq r q) :
    Act.Agrees (Rig.Like W Eq) (h.run fuel) (g.run fuel) r q := by
  unfold run
  refine andThen (rigCall_like like (agrees.now like.world)) fun start r q like => ?_
  refine andThen (turns_like agrees fuel _ like) fun ended r q like => ?_
  cases ended with
  | none => exact of_pure like _
  | some stats =>
    refine andThen (of_modify ⟨like.session, like.world, Scheduler.bond_eq.stop like.kept⟩)
      fun _ r q like => ?_
    exact andThen (of_modify ⟨like.session, like.world, Scheduler.bond_eq.note _ like.kept⟩)
      fun _ r q like => of_pure like _

end Like

theorem run_view {f : σ → τ} {h : HostLoop σ} {g : HostLoop τ}
    (agrees : HostLoop.Corresponds (fun w v => f w = v) h g) (fuel : Nat) (r : Rig σ) :
    Act.Projects (Rig.view f) (h.run fuel) (g.run fuel) r :=
  Rig.projects_of_like (run_like agrees fuel (r.like_view f))

end HostLoop

/-! ## What is beside the world -/

namespace HostLoop

variable {κ : Type} (h : HostLoop σ)

/-- The loop whose parties leave alone what is beside their world. -/
def aside : HostLoop (σ × κ) where
  core := h.core.aside
  clock := h.clock.aside
  renderer := h.renderer.aside
  input := ⟨h.input.poll.aside⟩
  stopRequested w := h.stopRequested w.1
  refreshInterval := h.refreshInterval

/-- The loop that writes down the calls on its core. -/
def traced : HostLoop (Traced σ) := { h.aside with core := h.core.traced }

/-- The calls that a run of the loop makes on the core, the first one first. -/
def calls (fuel : Nat) (r : Rig σ) : List Exchange :=
  ((h.traced.run fuel).after r.traced).machine.world.2

/-- One picture more if it was taken, with neither a failure nor a panic. -/
def countTaken (outcome : Except Panic (Except Failure Unit)) (n : Nat) : Nat :=
  n + (Act.caught outcome).isOk.toNat

/-- The loop that counts the pictures its renderer takes. -/
def counted : HostLoop (σ × Nat) :=
  { h.aside with renderer :=
      ⟨fun picture width height => (h.renderer.paint picture width height).noting countTaken⟩ }

/-- How many pictures the renderer takes in a run of the loop. -/
def shown (fuel : Nat) (r : Rig σ) : Nat := ((h.counted.run fuel).after (r.view (·, 0))).machine.world.2

theorem aside_agrees : HostLoop.Corresponds (fun w v => w.1 = v) (h.aside : HostLoop (σ × κ)) h where
  core := h.core.aside_projects.agrees
  now hw := hw ▸ (Act.aside_fst _ _).agrees
  sleep _ _ _ hw := hw ▸ (Act.aside_fst _ _).agrees
  paint _ _ _ _ _ hw := hw ▸ (Act.aside_fst _ _).agrees
  poll hw := hw ▸ (Act.aside_fst _ _).agrees
  stopRequested hw := congrArg h.stopRequested hw
  refreshInterval := rfl

theorem traced_agrees : HostLoop.Corresponds (fun w v => w.1 = v) h.traced h :=
  { h.aside_agrees with core := h.core.traced_projects.agrees }

theorem counted_agrees : HostLoop.Corresponds (fun w v => w.1 = v) h.counted h :=
  { h.aside_agrees with paint := fun picture width height _ _ hw =>
      hw ▸ ((h.renderer.paint picture width height).noting_fst countTaken _).agrees }

end HostLoop

end EmulatorHost
