import EmulatorHost.Proofs.Host.Noted

/-!
# Accounts of a host loop

* `Account`: the ticks and the refreshes of a loop; `HostLoop.watchedRun`: the loop, keeping its account.
* **`HostLoop.watchedRun_of`**: keeping it does not change a run.
* `HostLoop.notedTickTurn_account` and the lemmas beside it: all but the tick and the refresh of a turn is done
  without a note.
* `HostLoop.Tallies`: a relation of accounts that every part of a turn keeps to; **`HostLoop.Tallies.run`**: then a
  run does.
* **`HostLoop.tallies_grows`**: nothing is taken out of an account, and a turn adds at most one tick.
* `HostLoop.drain_mono`, `HostLoop.watchedTurn_mono`: more fuel changes nothing once the input runs dry.
-/

namespace EmulatorHost

variable {σ : Type}

/-- What a loop has done so far. -/
structure Account (σ : Type) where
  /-- The rigs in which ticks began, the first one first. -/
  ticks : List (Rig σ)
  /-- The clock readings of the turns that refreshed, the first one first. -/
  refreshes : List Duration

namespace Account

/-- An account of nothing. -/
def empty : Account σ := ⟨[], []⟩

/-- Writes down ticks and refreshes as they begin. -/
def note : Deed → Rig σ → Account σ → Account σ
  | .tick, r, a => { a with ticks := a.ticks ++ [r] }
  | .refresh reading, _, a => { a with refreshes := a.refreshes ++ [reading] }
  | _, _, a => a

end Account

/-- A rig, and the account of what a loop has done with it. -/
abbrev Watched (σ : Type) := Rig σ × Account σ

/-- A rig of which nothing has been written down. -/
def Rig.watched (r : Rig σ) : Watched σ := (r, .empty)

namespace HostLoop

variable (h : HostLoop σ)

/-- A run of the loop, keeping its account. -/
def watchedRun (fuel : Nat) : Act (Watched σ) (Option LoopStats) := h.notedRun Account.note fuel

/-- The account of a run. -/
def account (fuel : Nat) (r : Rig σ) : Account σ := ((h.watchedRun fuel).after r.watched).2

/-- **Keeping an account does not change a run.** -/
theorem watchedRun_of (fuel : Nat) {w : Watched σ} {r : Rig σ} (hw : Of w r) :
    Act.Agrees Of (h.watchedRun fuel) (h.run fuel) w r := notedRun_of _ h fuel hw

/-! ## What is not written down -/

section Quiet

theorem notedLook_account {deed : Bool → Deed} (quiet : ∀ asked r (a : Account σ), a.note (deed asked) r = a) :
    h.notedLook Account.note deed = h.stopping.aside := by
  unfold notedLook
  rw [← bind_pure (h.stopping.aside : Act (Watched σ) Bool)]
  exact bind_congr fun asked => doing_quiet _ (quiet asked) _

theorem notedDrain_account (fuel : Nat) : h.notedDrain Account.note fuel = (h.drain fuel).aside := by
  induction fuel with
  | zero => rfl
  | succ fuel ih =>
    unfold notedDrain drain
    rw [Act.aside_andThen, doing_quiet _ fun _ _ => rfl]
    refine bind_congr fun event => ?_
    cases event with
    | none => rfl
    | some e =>
      dsimp only
      rw [Act.aside_andThen, doing_quiet _ fun _ _ => rfl]
      exact bind_congr fun _ => ih

theorem notedTickTurn_account (s : LoopState) :
    h.notedTickTurn Account.note s = doing Account.note .tick (h.tickTurn s) := by
  unfold notedTickTurn tickTurn
  rw [doing_andThen]
  refine bind_congr fun report => ?_
  dsimp only
  cases report.delay with
  | none => rfl
  | some delay =>
    dsimp only
    rw [Act.aside_andThen, doing_quiet _ fun _ _ => rfl]
    refine bind_congr fun now => ?_
    rw [Act.aside_andThen]
    rfl

theorem notedShow_account (now : Duration) (s : LoopState) : h.notedShow Account.note now s =
    if s.nextRefresh ≤ now then doing Account.note (.refresh now) (h.showIfDue now s) else return s := by
  unfold notedShow showIfDue
  split_ifs
  · rw [doing_andThen]
    refine bind_congr fun report => ?_
    rw [Act.aside_andThen]
    rfl
  · rfl

theorem notedWait_account (s : LoopState) : h.notedWait Account.note s = (h.wait s).aside := by
  unfold notedWait wait
  rw [Act.aside_andThen, doing_quiet _ fun _ _ => rfl]
  refine bind_congr fun now => ?_
  split_ifs
  · exact doing_quiet _ (fun _ _ => rfl) _
  · rfl

end Quiet

/-! ## From the parts of a turn to a run -/

/-- Relations from one account to a later one, `R n` to one with at most `n` ticks more. -/
structure Tally (R : Nat → Watched σ → Watched σ → Prop) : Prop where
  refl (n : Nat) (w : Watched σ) : R n w w
  trans {n m : Nat} {u v w : Watched σ} : R n u v → R m v w → R (m + n) u w

namespace Tally

variable {R : Nat → Watched σ → Watched σ → Prop} {n m : Nat} {α β : Type}

theorem of_pure (tally : Tally R) (a : α) : Act.Moves (R n) (pure a) := tally.refl n

theorem andThen (tally : Tally R) {x : Act (Watched σ) α} {k : α → Act (Watched σ) β} (hx : Act.Moves (R n) x)
    (hk : ∀ a, Act.Moves (R m) (k a)) : Act.Moves (R (m + n)) (x >>= k) :=
  .andThen (fun first => tally.trans first (tally.refl m _)) tally.trans hx hk

end Tally

/-- Every part of a turn leads to an account related by `R`. -/
structure Tallies (R : Nat → Watched σ → Watched σ → Prop) : Prop extends Tally R where
  read : Act.Moves (R 0) (Rig.call h.clock.now).aside
  look : Act.Moves (R 0) h.stopping.aside
  tick (fuel : Nat) (now : Duration) (s : LoopState) : Act.Moves (R 1) (h.notedTick Account.note fuel now s)
  picture (now : Duration) (s : LoopState) : Act.Moves (R 0) (h.notedShow Account.note now s)
  wait (s : LoopState) : Act.Moves (R 0) (h.wait s).aside
  parting (stats : LoopStats) : Act.Moves (R 0) (parting stats).aside

namespace Tallies

variable {h} {R : Nat → Watched σ → Watched σ → Prop} (tallies : h.Tallies R)

include tallies

theorem rest (now : Duration) : ∀ ticked, Act.Moves (R 0) (h.notedRest Account.note now ticked)
  | none => tallies.of_pure _
  | some (.leave stats) => tallies.of_pure _
  | some (.goOn s) => by
    unfold notedRest
    rw [notedLook_account _ fun _ _ _ => rfl]
    refine tallies.andThen (n := 0) (m := 0) tallies.look fun asked => ?_
    split_ifs
    · exact tallies.of_pure _
    · refine tallies.andThen (n := 0) (m := 0) (tallies.picture now s) fun s => ?_
      rw [notedWait_account]
      exact tallies.andThen (n := 0) (m := 0) (tallies.wait s) fun _ => tallies.of_pure _

/-- **A turn ticks at most once.** -/
theorem turn (fuel : Nat) (s : LoopState) : Act.Moves (R 1) (h.notedTurn Account.note fuel s) :=
  tallies.andThen (n := 0) (m := 1) tallies.read fun now =>
    tallies.andThen (n := 1) (m := 0) (tallies.tick fuel now s) (tallies.rest now)

theorem turns (fuel : Nat) (s : LoopState) : Act.Moves (R fuel) (h.notedTurns Account.note fuel s) := by
  induction fuel generalizing s with
  | zero => exact tallies.of_pure _
  | succ fuel ih =>
    unfold notedTurns
    rw [notedLook_account _ fun _ _ _ => rfl]
    refine tallies.andThen (n := 0) (m := fuel + 1) tallies.look fun asked => ?_
    split_ifs
    · exact tallies.of_pure _
    refine tallies.andThen (n := 1) (m := fuel) (tallies.turn fuel s) fun ended => ?_
    rcases ended with _ | s | stats
    · exact tallies.of_pure _
    · exact ih s
    · exact tallies.of_pure _

/-- **A run has no more ticks than turns.** -/
theorem run (fuel : Nat) : Act.Moves (R fuel) (h.watchedRun fuel) := by
  refine tallies.andThen (n := 0) (m := fuel) tallies.read fun start => ?_
  rw [← congrArg R (Nat.zero_add fuel)]
  refine tallies.andThen (n := fuel) (m := 0) (tallies.turns fuel _) fun ended => ?_
  cases ended with
  | none => exact tallies.of_pure _
  | some stats => exact tallies.andThen (n := 0) (m := 0) (tallies.parting stats) fun _ => tallies.of_pure _

end Tallies

/-! ## An account only grows -/

/-- From one account to another nothing was taken out, and at most `n` ticks were written down. -/
structure Grows (n : Nat) (w v : Watched σ) : Prop where
  ticks : w.2.ticks <+: v.2.ticks
  few : v.2.ticks.length ≤ w.2.ticks.length + n
  refreshes : w.2.refreshes <+: v.2.refreshes

namespace Grows

theorem tally : Tally (Grows (σ := σ)) where
  refl n w := ⟨List.prefix_rfl, Nat.le_add_right .., List.prefix_rfl⟩
  trans {n m u v w} first second := by
    refine ⟨first.ticks.trans second.ticks, ?_, first.refreshes.trans second.refreshes⟩
    have few := first.few
    have few' := second.few
    omega

theorem of_aside {α : Type} (x : Act (Rig σ) α) : Act.Moves (Grows 0) (x.aside : Act (Watched σ) α) := by
  intro w
  rw [x.after_aside]
  exact ⟨List.prefix_rfl, Nat.le_refl _, List.prefix_rfl⟩

theorem of_tick {α : Type} (x : Act (Rig σ) α) : Act.Moves (Grows 1) (doing Account.note .tick x) := fun w =>
  have begun : Grows 1 w (w.1, w.2.note .tick w.1) :=
    ⟨List.prefix_append .., Nat.le_of_eq List.length_append, List.prefix_rfl⟩
  tally.trans begun (of_aside x _)

theorem of_refresh {α : Type} (reading : Duration) (x : Act (Rig σ) α) :
    Act.Moves (Grows 0) (doing Account.note (.refresh reading) x) := fun w =>
  have begun : Grows 0 w (w.1, w.2.note (.refresh reading) w.1) :=
    ⟨List.prefix_rfl, Nat.le_refl _, List.prefix_append ..⟩
  tally.trans begun (of_aside x _)

theorem of_map {α β : Type} (f : α → β) {x : Act (Watched σ) α} {n : Nat} (h : Act.Moves (Grows n) x) :
    Act.Moves (Grows n) (f <$> x) := by
  intro w
  rw [Act.after_map]
  exact h w

theorem of_notedTick (fuel : Nat) (now : Duration) (s : LoopState) :
    Act.Moves (Grows 1) (h.notedTick Account.note fuel now s) := by
  unfold notedTick
  rw [notedDrain_account, notedTickTurn_account]
  split_ifs
  · refine tally.andThen (n := 0) (m := 1) (of_aside _) fun dry => ?_
    split_ifs
    · exact .of_map _ (of_tick _)
    · exact tally.of_pure _
  · exact tally.of_pure _

theorem of_notedShow (now : Duration) (s : LoopState) :
    Act.Moves (Grows 0) (h.notedShow Account.note now s) := by
  rw [notedShow_account]
  split_ifs
  · exact of_refresh _ _
  · exact tally.of_pure _

end Grows

/-- **Nothing is taken out of an account, and a turn adds at most one tick.** -/
theorem tallies_grows : h.Tallies Grows where
  toTally := Grows.tally
  read := Grows.of_aside _
  look := Grows.of_aside _
  tick := Grows.of_notedTick h
  picture := Grows.of_notedShow h
  wait s := Grows.of_aside (h.wait s)
  parting stats := Grows.of_aside (parting stats)

/-! ## Fuel -/

theorem drain_mono {n m : Nat} {r q : Rig σ} (dry : h.drain n r = .ok true q) (more : n ≤ m) :
    h.drain m r = .ok true q := by
  induction n generalizing m r with
  | zero => cases dry
  | succ n ih =>
    obtain ⟨m, rfl⟩ := Nat.exists_eq_add_of_le' (Nat.le_trans (Nat.succ_le_succ n.zero_le) more)
    unfold drain at dry ⊢
    rw [Act.bind_apply] at dry ⊢
    cases polled : Rig.call h.input.poll r with
    | error p r => rw [polled] at dry; cases dry
    | ok event r =>
      rw [polled] at dry
      cases event with
      | none => exact dry
      | some e =>
        dsimp only at dry ⊢
        rw [Act.bind_apply] at dry ⊢
        cases applied : Rig.onMachine (Session.apply h.core e) r with
        | error p r => rw [applied] at dry; cases dry
        | ok _ r =>
          rw [applied] at dry
          exact ih dry (Nat.le_of_succ_le_succ more)

theorem watchedTurn_mono {n m : Nat} {s : LoopState} {w : Watched σ} {q : Rig σ}
    (dry : h.drain n ((Rig.call h.clock.now).after w.1) = .ok true q) (more : n ≤ m) :
    h.notedTurn Account.note m s w = h.notedTurn Account.note n s w := by
  unfold notedTurn
  rw [doing_quiet _ fun _ _ => rfl, Act.bind_apply, Act.bind_apply]
  unfold Act.aside Act.noting
  cases read : Rig.call h.clock.now w.1 with
  | error p r => rfl
  | ok now r =>
    rw [Act.after_of_ok read] at dry
    dsimp only
    rw [Act.bind_apply, Act.bind_apply]
    have tick : h.notedTick Account.note m now s (r, w.2) = h.notedTick Account.note n now s (r, w.2) := by
      unfold notedTick
      split_ifs
      · rw [notedDrain_account, notedDrain_account, Act.bind_apply, Act.bind_apply]
        unfold Act.aside Act.noting
        dsimp only
        rw [dry, h.drain_mono dry more]
      · rfl
    rw [tick]

theorem watchedTurns_apply (fuel : Nat) (s : LoopState) (w : Watched σ) :
    h.notedTurns Account.note (fuel + 1) s w =
      if h.stopRequested w.1.machine.world = true then .ok (some s.stats) w
      else match h.notedTurn Account.note fuel s w with
        | .ok none v => .ok none v
        | .ok (some (.leave stats)) v => .ok (some stats) v
        | .ok (some (.goOn s)) v => h.notedTurns Account.note fuel s v
        | .error p v => .error p v := by
  rw [notedTurns]
  change (if h.stopRequested w.1.machine.world = true then _ else _ :
    Act (Watched σ) (Option LoopStats)) w = _
  split_ifs
  · rfl
  · rw [Act.bind_apply]
    rcases h.notedTurn Account.note fuel s w with ⟨_ | _ | _, v⟩ | ⟨p, v⟩ <;> rfl

end HostLoop

end EmulatorHost
