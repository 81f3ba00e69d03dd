import EmulatorHost.Host.Loop
import EmulatorHost.Proofs.Session.Beside

/-!
# A host loop with notes

What a host loop does may be noted beside its rig, whatever the notes are to tell.

* `HostLoop.tickIfDue`, `HostLoop.showIfDue`, `HostLoop.wait`: the parts of a turn; `HostLoop.turn_eq`.
* `Deed`: what a loop does; `HostLoop.doing`: an action that is noted as it begins.
* `HostLoop.notedTurn`, `HostLoop.notedTurns`, `HostLoop.notedRun`: the loop, taking notes.
* **`HostLoop.notedRun_of`**: taking them does not change the run.
-/

namespace EmulatorHost

variable {σ : Type}

/-! ## The parts of a turn -/

namespace HostLoop

variable (h : HostLoop σ)

/-- The tick of a turn, if one is due; none if the input does not run dry within `fuel` polls. -/
def tickIfDue (fuel : Nat) (now : Duration) (s : LoopState) : Act (Rig σ) (Option TurnEnd) :=
  if s.nextTick ≤ now then do
    if ← h.drain fuel then some <$> h.tickTurn s else return none
  else return some (.goOn s)

/-- The refresh of a turn, if one is due. -/
def showIfDue (now : Duration) (s : LoopState) : Act (Rig σ) LoopState :=
  if s.nextRefresh ≤ now then do
    let report ← Scheduler.refresh h.core h.renderer
    let nextRefresh ← Act.ofExcept (now.after h.refreshInterval)
    return { s with stats := s.stats.addRefresh report, nextRefresh }
  else return s

/-- The wait for the earlier timer. -/
def wait (s : LoopState) : Act (Rig σ) Unit := do
  let now ← Rig.call h.clock.now
  if now < s.nextTick.min s.nextRefresh then
    Rig.call (h.clock.sleep (s.nextTick.min s.nextRefresh - now))
  else return

theorem refreshTurn_eq (now : Duration) (s : LoopState) : h.refreshTurn now s = do
    let s ← h.showIfDue now s
    h.wait s
    return s := by
  unfold refreshTurn showIfDue wait
  dsimp only
  split_ifs
  · simp only [bind_assoc, pure_bind]
    refine bind_congr fun report => bind_congr fun nextRefresh => bind_congr fun now => ?_
    split_ifs <;> simp only [pure_bind]
  · simp only [bind_assoc, pure_bind]
    refine bind_congr fun now => ?_
    split_ifs <;> simp only [pure_bind]

theorem turn_eq (fuel : Nat) (s : LoopState) : h.turn fuel s = do
    let now ← Rig.call h.clock.now
    match ← h.tickIfDue fuel now s with
    | none => return none
    | some (.leave stats) => return some (.leave stats)
    | some (.goOn s) =>
      if ← h.stopping then return some (.leave s.stats)
      else return some (.goOn (← h.refreshTurn now s)) := by
  unfold turn tickIfDue
  refine bind_congr fun now => ?_
  dsimp only
  split_ifs
  · rw [bind_assoc]
    refine bind_congr fun dry => ?_
    split_ifs <;> rfl
  · rfl

/-- What a loop does as it is left: it stops the scheduler and says so. -/
def parting (stats : LoopStats) : Act (Rig σ) Unit := do
  modify (·.mapScheduler Scheduler.stop)
  modify (·.note .info ("host loop stopped after " ++ toString stats.ticks ++ " ticks, "
    ++ toString stats.steps ++ " steps, " ++ toString stats.paints ++ " paints"))

theorem run_eq (fuel : Nat) : h.run fuel = do
    let start ← Rig.call h.clock.now
    match ← h.turns fuel ⟨.zero, start, start⟩ with
    | none => return none
    | some stats =>
      parting stats
      return some stats := by
  unfold run
  refine bind_congr fun start => bind_congr fun ended => ?_
  cases ended <;> rfl

end HostLoop

/-! ## Taking notes -/

/-- What a host loop does, one thing at a time. -/
inductive Deed where
  /-- A look at the stop handle before a turn, and what it read. A turn begins with one that reads false. -/
  | head (asked : Bool)
  /-- The look between the tick and the refresh of a turn. -/
  | middle (asked : Bool)
  | readClock
  | poll
  | apply (event : ButtonEvent)
  | tick
  /-- The refresh of a turn, and what the turn read from the clock. -/
  | refresh (reading : Duration)
  | sleep
  deriving DecidableEq

namespace HostLoop

section Notes

variable {κ : Type} (note : Deed → Rig σ → κ → κ)

/-- An action that is noted as it begins. -/
def doing {α : Type} (d : Deed) (x : Act (Rig σ) α) : Act (Rig σ × κ) α := fun w =>
  x.aside (w.1, note d w.1 w.2)

theorem doing_quiet {α : Type} {d : Deed} (quiet : ∀ r k, note d r k = k) (x : Act (Rig σ) α) :
    doing note d x = x.aside := by
  funext w
  rw [doing, quiet]

theorem doing_ends {α : Type} {d : Deed} {x : Act (Rig σ) α} {w : Rig σ × κ} {Q : α → Rig σ × κ → Prop}
    {E : Rig σ × κ → Prop} (h : Act.Ends x.aside (w.1, note d w.1 w.2) Q E) : Act.Ends (doing note d x) w Q E := h

theorem doing_andThen {α β : Type} (d : Deed) (x : Act (Rig σ) α) (k : α → Act (Rig σ) β) :
    doing note d (x >>= k) = doing note d x >>= fun a => (k a).aside := by
  funext w
  exact congrFun (x.aside_andThen k) (w.1, note d w.1 w.2)

variable (h : HostLoop σ)

/-- A look at the stop handle, noted with what it read. -/
def notedLook (deed : Bool → Deed) : Act (Rig σ × κ) Bool := do
  let asked ← h.stopping.aside
  doing note (deed asked) (return asked)

/-- Applies events until the source has none for now. -/
def notedDrain : Nat → Act (Rig σ × κ) Bool
  | 0 => return false
  | fuel + 1 => do
    match ← doing note .poll (Rig.call h.input.poll) with
    | none => return true
    | some event =>
      doing note (.apply event) (Rig.onMachine (Session.apply h.core event))
      notedDrain fuel

/-- Ticks, and arms the timer for the next tick. -/
def notedTickTurn (s : LoopState) : Act (Rig σ × κ) TurnEnd := do
  let report ← doing note .tick (Scheduler.tick h.core h.clock)
  match report.delay with
  | none => return .leave (s.stats.addTick report)
  | some delay =>
    let now ← doing note .readClock (Rig.call h.clock.now)
    let nextTick ← (Act.ofExcept (now.after delay)).aside
    return .goOn { s with stats := s.stats.addTick report, nextTick }

/-- The tick of a turn, if one is due. -/
def notedTick (fuel : Nat) (now : Duration) (s : LoopState) : Act (Rig σ × κ) (Option TurnEnd) :=
  if s.nextTick ≤ now then do
    if ← h.notedDrain note fuel then some <$> h.notedTickTurn note s else return none
  else return some (.goOn s)

/-- The refresh of a turn, if one is due. -/
def notedShow (now : Duration) (s : LoopState) : Act (Rig σ × κ) LoopState :=
  if s.nextRefresh ≤ now then do
    let report ← doing note (.refresh now) (Scheduler.refresh h.core h.renderer)
    let nextRefresh ← (Act.ofExcept (now.after h.refreshInterval)).aside
    return { s with stats := s.stats.addRefresh report, nextRefresh }
  else return s

/-- The wait for the earlier timer. -/
def notedWait (s : LoopState) : Act (Rig σ × κ) Unit := do
  let now ← doing note .readClock (Rig.call h.clock.now)
  if now < s.nextTick.min s.nextRefresh then
    doing note .sleep (Rig.call (h.clock.sleep (s.nextTick.min s.nextRefresh - now)))
  else return

/-- What follows the tick of a turn. -/
def notedRest (now : Duration) : Option TurnEnd → Act (Rig σ × κ) (Option TurnEnd)
  | none => return none
  | some (.leave stats) => return some (.leave stats)
  | some (.goOn s) => do
    if ← h.notedLook note .middle then return some (.leave s.stats)
    else
      let s ← h.notedShow note now s
      h.notedWait note s
      return some (.goOn s)

/-- One turn of the loop. -/
def notedTurn (fuel : Nat) (s : LoopState) : Act (Rig σ × κ) (Option TurnEnd) := do
  let now ← doing note .readClock (Rig.call h.clock.now)
  h.notedRest note now (← h.notedTick note fuel now s)

/-- Turns until the loop is left. -/
def notedTurns : Nat → LoopState → Act (Rig σ × κ) (Option LoopStats)
  | 0, _ => return none
  | fuel + 1, s => do
    if ← h.notedLook note .head then return some s.stats
    else
      match ← h.notedTurn note fuel s with
      | none => return none
      | some (.leave stats) => return some stats
      | some (.goOn s) => notedTurns fuel s

/-- A run of the loop. -/
def notedRun (fuel : Nat) : Act (Rig σ × κ) (Option LoopStats) := do
  let start ← doing note .readClock (Rig.call h.clock.now)
  match ← h.notedTurns note fuel ⟨.zero, start, start⟩ with
  | none => return none
  | some stats =>
    (parting stats).aside
    return some stats

/-! ## Taking notes changes nothing -/

section Erasure

open Act.Agrees

variable {w : Rig σ × κ} {r : Rig σ}

/-- The rig beside which the notes are. -/
abbrev Of (w : Rig σ × κ) (r : Rig σ) : Prop := w.1 = r

theorem aside_of {α : Type} (x : Act (Rig σ) α) (hw : Of w r) : Act.Agrees Of x.aside x w r :=
  hw ▸ (x.aside_fst w).agrees

theorem doing_of {α : Type} (d : Deed) (x : Act (Rig σ) α) (hw : Of w r) :
    Act.Agrees Of (doing note d x) x w r := aside_of (w := (w.1, note d w.1 w.2)) x hw

theorem notedLook_of (deed : Bool → Deed) (hw : Of w r) :
    Act.Agrees Of (h.notedLook note deed) h.stopping w r := by
  have read : h.stopping = h.stopping >>= pure := (bind_pure _).symm
  rw [read]
  exact andThen (aside_of _ hw) fun asked w r hw => doing_of note _ _ hw

theorem notedDrain_of (fuel : Nat) (hw : Of w r) :
    Act.Agrees Of (h.notedDrain note fuel) (h.drain fuel) w r := by
  induction fuel generalizing w r with
  | zero => exact of_pure hw _
  | succ fuel ih =>
    unfold notedDrain drain
    refine andThen (doing_of note _ _ hw) fun found w r hw => ?_
    cases found with
    | none => exact of_pure hw _
    | some event => exact andThen (doing_of note _ _ hw) fun _ w r hw => ih hw

theorem notedTickTurn_of (s : LoopState) (hw : Of w r) :
    Act.Agrees Of (h.notedTickTurn note s) (h.tickTurn s) w r := by
  unfold notedTickTurn tickTurn
  refine andThen (doing_of note _ _ hw) fun report w r hw => ?_
  obtain ⟨stepped, delay, fault⟩ := report
  cases delay with
  | none => exact of_pure hw _
  | some delay =>
    refine andThen (doing_of note _ _ hw) fun now w r hw => ?_
    exact andThen (aside_of _ hw) fun nextTick w r hw => of_pure hw _

theorem notedTick_of (fuel : Nat) (now : Duration) (s : LoopState) (hw : Of w r) :
    Act.Agrees Of (h.notedTick note fuel now s) (h.tickIfDue fuel now s) w r := by
  unfold notedTick tickIfDue
  refine of_ite (fun _ => ?_) fun _ => of_pure hw _
  refine andThen (notedDrain_of note h fuel hw) fun dry w r hw => ?_
  exact of_ite (fun _ => of_map _ (notedTickTurn_of note h s hw)) fun _ => of_pure hw _

theorem notedShow_of (now : Duration) (s : LoopState) (hw : Of w r) :
    Act.Agrees Of (h.notedShow note now s) (h.showIfDue now s) w r := by
  unfold notedShow showIfDue
  refine of_ite (fun _ => ?_) fun _ => of_pure hw _
  refine andThen (doing_of note _ _ hw) fun report w r hw => ?_
  exact andThen (aside_of _ hw) fun nextRefresh w r hw => of_pure hw _

theorem notedWait_of (s : LoopState) (hw : Of w r) : Act.Agrees Of (h.notedWait note s) (h.wait s) w r := by
  unfold notedWait wait
  refine andThen (doing_of note _ _ hw) fun now w r hw => ?_
  exact of_ite (fun _ => doing_of note _ _ hw) fun _ => of_pure hw _

theorem notedTurn_of (fuel : Nat) (s : LoopState) (hw : Of w r) :
    Act.Agrees Of (h.notedTurn note fuel s) (h.turn fuel s) w r := by
  rw [turn_eq]
  unfold notedTurn
  refine andThen (doing_of note _ _ hw) fun now w r hw => ?_
  refine andThen (notedTick_of note h fuel now s hw) fun ticked w r hw => ?_
  match ticked with
  | none => exact of_pure hw _
  | some (.leave stats) => exact of_pure hw _
  | some (.goOn s) =>
    refine andThen (notedLook_of note h _ hw) fun asked w r hw => of_ite (fun _ => of_pure hw _) fun _ => ?_
    rw [refreshTurn_eq, bind_assoc]
    refine andThen (notedShow_of note h now s hw) fun s w r hw => ?_
    rw [bind_assoc]
    exact andThen (notedWait_of note h s hw) fun _ w r hw => of_pure hw _

theorem notedTurns_of (fuel : Nat) (s : LoopState) (hw : Of w r) :
    Act.Agrees Of (h.notedTurns note fuel s) (h.turns fuel s) w r := by
  induction fuel generalizing s w r with
  | zero => exact of_pure hw _
  | succ fuel ih =>
    unfold notedTurns turns
    refine andThen (notedLook_of note h _ hw) fun asked w r hw => of_ite (fun _ => of_pure hw _) fun _ => ?_
    refine andThen (notedTurn_of note h fuel s hw) fun ended w r hw => ?_
    match ended with
    | none => exact of_pure hw _
    | some (.leave stats) => exact of_pure hw _
    | some (.goOn s) => exact ih s hw

/-- **Taking notes of a loop does not change its run.** -/
theorem notedRun_of (fuel : Nat) (hw : Of w r) : Act.Agrees Of (h.notedRun note fuel) (h.run fuel) w r := by
  rw [run_eq]
  unfold notedRun
  refine andThen (doing_of note _ _ hw) fun start w r hw => ?_
  refine andThen (notedTurns_of note h fuel _ hw) fun ended w r hw => ?_
  cases ended with
  | none => exact of_pure hw _
  | some stats => exact andThen (aside_of _ hw) fun _ w r hw => of_pure hw _

end Erasure

end Notes

end HostLoop

end EmulatorHost
