import EmulatorHost.Proofs.Replay.Delivered
import EmulatorHost.Proofs.Replay.Fidelity
import EmulatorHost.Proofs.Scheduler.Phases

/-!
# Logs are played on time

* `Session.PlaysTo`: a session that has played a log through some steps.
* `Session.TakesTick`: a step that delivers the events of a tick, and nothing else.
* **`Rig.Performs.playsTo`**: a step takes the next tick, and no other operation delivers an entry.
* **`Rig.run_playsTo`**: so in a run every entry is delivered once, at its own tick and in its place.
* **`Rig.play_onTime`**: a session plays up to the tick of the last entry. Until then it drops live input,
  and then takes it again.
-/

namespace EmulatorHost

/-- The events of the entries before a tick, with their ticks. -/
def InputLog.stampsBefore (l : InputLog) (n : Nat) : List (Nat × ButtonEvent) :=
  (l.entries.filter fun e => e.tick.toNat < n).map InputEntry.stamp

theorem InputLog.stampsBefore_zero (l : InputLog) : l.stampsBefore 0 = [] := by simp [stampsBefore]

theorem InputLog.stampsBefore_succ {l : InputLog} (h : l.Ordered) (n : Nat) :
    l.stampsBefore (n + 1) = l.stampsBefore n ++ (l.eventsAt n).map (n, ·) := by
  unfold stampsBefore eventsAt
  rw [filter_lt_succ h, List.map_append, List.map_map]
  refine congrArg _ (List.map_congr_left fun e member => ?_)
  have tick : e.tick.toNat = n := by simpa using (List.mem_filter.mp member).2
  rw [InputEntry.stamp, tick]
  rfl

namespace Session

/-! ## Tick by tick -/

/-- The session runs, and has played the log `l` through `k` steps from the step count `o` on. -/
structure PlaysTo (l : InputLog) (o k : Nat) (s : Session) : Prop where
  running : s.isRunning = true
  steps : s.steps.toNat = o + k
  tape : s.Plays (l.entriesFrom k) k

/-- A step delivers the events of the tick `k`, tells the core about them, and calls it for a step once. -/
structure TakesTick (l : InputLog) (k : Nat) (s t : Session) (xs : List Exchange) : Prop where
  released : s.released (some .step) xs = l.eventsAt k
  controller : t.controller = s.controller.applyAll (l.eventsAt k)
  told : inputs xs = s.delivery.each (l.eventsAt k) ++ s.delivery.whole t.controller ++ [.step]
  once : xs.countP Exchange.isStep = 1

variable {l : InputLog} {o k : Nat} {s s' : Session} {op : Op} {xs : List Exchange}

theorem PlaysTo.isPlaying_iff (h : s.PlaysTo l o k) (ordered : l.Ordered) {last : InputEntry}
    (ends : l.entries.getLast? = some last) : s.isPlaying = true ↔ k ≤ last.tick.toNat :=
  h.tape.isPlaying_iff.trans (InputLog.entriesFrom_ne_nil_iff ordered ends)

theorem PlaysTo.of_eq (h : s.PlaysTo l o k) (running : s'.isRunning = true) (steps : s'.steps = s.steps)
    (playback : s'.playback = s.playback) : s'.PlaysTo l o k :=
  ⟨running, by rw [steps, h.steps], h.tape.of_eq playback steps⟩

/-- **A step takes the next tick.** -/
theorem Steps.takesTick {r : Except Panic Answer} (h : Steps s xs r s') (plays : s.PlaysTo l o k)
    (ordered : l.Ordered) (keys : KeysReturn xs) (room : s.steps.toNat + 1 < UInt64.size) :
    s.TakesTick l k s' xs ∧ s'.PlaysTo l o (k + 1) := by
  obtain ⟨t, due, left⟩ := plays.tape.due_tick ordered
  have kept := due_eq due
  have steps : t.steps = s.steps := by rw [kept]; rfl
  obtain ⟨taken, told⟩ := h.all due keys room
  rcases h.applied with ⟨q, broken⟩ | ⟨t', due', applied, uncounted | ⟨-, -, once⟩⟩
  · cases (broken.all due keys).1
  · -- a step that is told in full is counted
    obtain ⟨-, last⟩ := Prod.mk.inj (Except.ok.inj (due'.symm.trans due))
    have same : t = { t with steps := t.steps + 1 } := (uncounted.1.trans last).symm.trans taken
    have count : t.steps.toNat = (t.steps + 1).toNat := congrArg (·.steps.toNat) same
    rw [steps_toNat (steps ▸ room)] at count
    omega
  · obtain ⟨now, -⟩ := Prod.mk.inj (Except.ok.inj (due'.symm.trans due))
    refine ⟨⟨h.delivered.trans (applied.trans now), ?_, ?_, once⟩, ?_, ?_, ?_⟩
    · rw [taken, kept]
      rfl
    · rw [told, taken]
    · rw [taken, kept]
      exact plays.running
    · rw [taken]
      dsimp only
      rw [steps, steps_toNat room, plays.steps, Nat.add_assoc]
    · rw [taken]
      exact left.step (steps ▸ room)

theorem Performs.playsTo {r : Except Panic Answer} (h : Performs s op xs r s') (plays : s.PlaysTo l o k)
    (ordered : l.Ordered) (others : ∀ log, op ≠ .play log) (calm : Calm xs)
    (room : op = .step → s.steps.toNat + 1 < UInt64.size) :
    op = .step ∧ s.TakesTick l k s' xs ∧ s'.PlaysTo l o (k + 1) ∨
      op ≠ .step ∧ s.released (some op) xs = [] ∧ xs.countP Exchange.isStep = 0 ∧ s'.PlaysTo l o k := by
  by_cases quiet : op.isQuiet = true
  · have rests := h.rests quiet
    have running := h.running calm plays.running quiet
    refine .inr ⟨?_, ?_, (h.applied_of_quiet quiet).2, plays.of_eq running rests.steps rests.playback⟩
    · rintro rfl
      cases quiet
    · cases op <;> first | rfl | cases quiet
  · cases h with
    | dropped e dead => exact .inr ⟨nofun, rfl, rfl, plays⟩
    | applied live h =>
      obtain ⟨playback, steps, -, none⟩ := h.frame
      have running : s'.isRunning = true := by
        cases h with
        | recorded kept => rw [recorded_eq kept]; exact plays.running
        | unrecorded => exact plays.running
        | cut => exact plays.running
      exact .inr ⟨nofun, rfl, none, plays.of_eq running steps playback⟩
    | stepIgnored idle => cases plays.running.symm.trans idle
    | stepped _ h =>
      obtain ⟨takes, plays⟩ := h.takesTick plays ordered calm.keys (room rfl)
      exact .inl ⟨rfl, takes, plays⟩
    | recordingStarted => exact .inr ⟨nofun, rfl, rfl, plays.of_eq plays.running rfl rfl⟩
    | recordingStopped => exact .inr ⟨nofun, rfl, rfl, plays.of_eq plays.running rfl rfl⟩
    | played log => exact absurd rfl (others log)
    | _ => exact absurd rfl quiet

theorem Performs.takesLive {e : ButtonEvent} {r : Except Panic Answer} (h : Performs s (.apply e) xs r s')
    (live : s.isLive = true) (keys : KeysReturn xs) :
    s'.controller = s.controller.apply e ∧ inputs xs = s.delivery.each [e] := by
  cases h with
  | dropped _ dead => cases live.symm.trans dead
  | applied _ h =>
    refine ⟨(h.controller live).2, ?_⟩
    cases h with
    | recorded kept => exact inputs_forwarded _ _
    | unrecorded => exact inputs_forwarded _ _
    | cut single q => exact absurd (List.mem_singleton_self _) (keys _ q)

theorem Performs.dropsLive {e : ButtonEvent} {r : Except Panic Answer} (h : Performs s (.apply e) xs r s')
    (dead : s.isLive = false) : xs = [] := by
  cases h with
  | dropped => rfl
  | applied live => cases live.symm.trans dead

/-! ## Steps that are counted -/

theorem Performs.steps_le {r : Except Panic Answer} (h : Performs s op xs r s') :
    s'.steps.toNat ≤ s.steps.toNat + 1 := by
  by_cases quiet : op.isQuiet = true
  · rw [(h.rests quiet).steps]
    exact Nat.le_succ _
  · cases h with
    | applied live h =>
      rw [h.frame.2.1]
      exact Nat.le_succ _
    | stepped _ h =>
      cases h with
      | cut due => rw [due.frame.1]; exact Nat.le_succ _
      | unannounced due => rw [due.frame.1]; exact Nat.le_succ _
      | uncounted due => rw [due.frame.1]; exact Nat.le_succ _
      | taken due room =>
        exact Nat.le_of_eq ((steps_toNat room).trans (by rw [due.frame.1]))
    | dropped => exact Nat.le_succ _
    | stepIgnored => exact Nat.le_succ _
    | recordingStarted => exact Nat.le_succ _
    | recordingStopped => exact Nat.le_succ _
    | played log => split_ifs <;> exact Nat.le_succ _
    | _ => exact absurd rfl quiet

end Session

/-! ## Whole runs -/

namespace Rig

variable {σ : Type} (core : Core σ) {l : InputLog} {o k : Nat}

/-- The session can count every step of a run. -/
def Roomy (ops : List (RigOp σ)) (r : Rig σ) : Prop :=
  ∀ front op back, ops = front ++ op :: back → op.op? = some .step →
    (r.run core front).machine.session.steps.toNat + 1 < UInt64.size

theorem Performs.steps_le {op : RigOp σ} {s s' : Session} {xs : List Exchange} (h : Performs s op xs s') :
    s'.steps.toNat ≤ s.steps.toNat + 1 := by
  cases h with
  | asked h => exact h.steps_le
  | ticked clock h => exact h.steps_le
  | waited => exact Nat.le_succ _
  | refreshed => exact Nat.le_succ _
  | stopped => exact Nat.le_succ _

/-- There is room for a run with fewer operations than there are step counts left. -/
theorem roomy_of_length {ops : List (RigOp σ)} {r : Rig σ}
    (short : r.machine.session.steps.toNat + ops.length < UInt64.size) : r.Roomy core ops := by
  rintro front op back rfl -
  have few : (r.run core front).machine.session.steps.toNat ≤ r.machine.session.steps.toNat + front.length := by
    clear short
    induction front using List.reverseRecOn with
    | nil => exact Nat.le_refl _
    | append_singleton front last ih =>
      rw [run_append, List.length_append, ← Nat.add_assoc]
      exact Nat.le_trans (last.performs core _).steps_le (Nat.add_le_add_right ih 1)
  rw [List.length_append, List.length_cons] at short
  omega

/-- A step of a playback takes the next tick, and no other operation delivers an entry. A tick of the
scheduler may wait. -/
theorem Performs.playsTo {op : RigOp σ} {s s' : Session} {xs : List Exchange} (h : Performs s op xs s')
    (plays : s.PlaysTo l o k) (ordered : l.Ordered) (others : op.isPlay = false) (calm : Calm xs)
    (room : op.op? = some .step → s.steps.toNat + 1 < UInt64.size) :
    op.op? = some .step ∧ s.TakesTick l k s' xs ∧ s'.PlaysTo l o (k + 1) ∨
      op ≠ .session .step ∧ s.released op.op? xs = [] ∧ xs.countP Exchange.isStep = 0 ∧ s'.PlaysTo l o k := by
  cases h with
  | asked h =>
    refine (h.playsTo plays ordered (by rintro log rfl; cases others) calm fun is_step => room ?_).imp ?_ ?_
    · rw [is_step]
      rfl
    · rintro ⟨rfl, takes⟩
      exact ⟨rfl, takes⟩
    · rintro ⟨no_step, rest⟩
      exact ⟨fun same => no_step (by cases same; rfl), rest⟩
  | ticked clock h =>
    refine (h.playsTo plays ordered nofun calm fun _ => room rfl).imp ?_ ?_
    · exact fun ⟨_, takes⟩ => ⟨rfl, takes⟩
    · exact fun ⟨no_step, _⟩ => absurd rfl no_step
  | waited => exact .inr ⟨nofun, Session.released_nil s _, rfl, plays⟩
  | refreshed => exact .inr ⟨nofun, rfl, rfl, plays⟩
  | stopped => exact .inr ⟨nofun, rfl, rfl, plays⟩

/-- **Every entry is delivered once, at its own tick and in its place.** -/
theorem run_playsTo (ops : List (RigOp σ)) (r : Rig σ) (plays : r.machine.session.PlaysTo l o k)
    (ordered : l.Ordered) (others : ∀ op ∈ ops, op.isPlay = false) (calm : Calm (r.calls core ops))
    (room : r.Roomy core ops) :
    (r.run core ops).machine.session.PlaysTo l o (k + (r.calls core ops).countP Exchange.isStep) ∧
      l.stampsBefore k ++ r.stamped core Session.released ops k =
        l.stampsBefore (k + (r.calls core ops).countP Exchange.isStep) := by
  induction ops generalizing r k with
  | nil => exact ⟨plays, List.append_nil _⟩
  | cons op ops ih =>
    rw [calls_cons] at calm
    obtain ⟨this, rest⟩ := List.forall_mem_cons.mp others
    have later : Roomy core ops ((op.act core).after r) := fun front next back split =>
      room (op :: front) next back (congrArg (op :: ·) split)
    rw [calls_cons, List.countP_append, ← Nat.add_assoc, stamped, ← List.append_assoc]
    rcases (op.performs core r).playsTo plays ordered this calm.left (room [] op ops rfl) with
      ⟨is_step, takes, plays⟩ | ⟨-, none, uncounted, plays⟩
    · have now : l.stampsBefore k ++ (r.machine.session.released op.op? (r.calls core [op])).map (k, ·) =
          l.stampsBefore (k + 1) := by
        rw [is_step, takes.released, InputLog.stampsBefore_succ ordered]
      rw [now, takes.once]
      exact ih _ plays rest calm.right later
    · rw [none, uncounted, List.map_nil, List.append_nil]
      exact ih _ plays rest calm.right later

theorem run_play (log : InputLog) (r : Rig σ) : r.run core [.session (.play log)] =
    ⟨⟨if log.isEmpty then r.machine.session
      else { r.machine.session with playback := some (.start log r.machine.session.steps) },
      r.machine.world, r.machine.journal⟩, r.scheduler⟩ := rfl

theorem playsTo_start {r : Rig σ} (running : r.machine.session.isRunning = true) {log : InputLog}
    (more : log.entries ≠ []) :
    (r.run core [.session (.play log)]).machine.session.PlaysTo log r.machine.session.steps.toNat 0 := by
  have full : log.isEmpty = false := by simpa [InputLog.isEmpty] using more
  rw [run_play, full]
  refine ⟨running, rfl, ?_⟩
  rw [InputLog.entriesFrom_zero]
  exact Session.plays_start r.machine.session full

/-- What comes of the next operation while a session keeps to the log `l`, `n` steps after it was told to. -/
structure OnTime (l : InputLog) (n : Nat) (op : RigOp σ) (r : Rig σ) : Prop where
  /-- A step, by hand or by a tick that does not wait, takes the tick `n`. -/
  step : op = .session .step ∨ 0 < (r.calls core [op]).countP Exchange.isStep →
    r.machine.session.TakesTick l n ((op.act core).after r).machine.session (r.calls core [op])
  dropped (e : ButtonEvent) : op = .session (.apply e) → r.machine.session.isPlaying = true →
    op.act core r = .ok () r ∧ r.calls core [op] = []
  taken (e : ButtonEvent) : op = .session (.apply e) → r.machine.session.isPlaying = false →
    ((op.act core).after r).machine.session.controller = r.machine.session.controller.apply e ∧
      inputs (r.calls core [op]) = r.machine.session.delivery.each [e]

theorem apply_of_isPlaying (e : ButtonEvent) {r : Rig σ} (playing : r.machine.session.isPlaying = true) :
    (RigOp.session (.apply e)).act core r = .ok () r := by
  have dead : ¬ (r.machine.session.isRunning && !r.machine.session.isPlaying) = true := by simp [playing]
  have same : Session.apply core e r.machine = .ok () r.machine := by
    unfold Session.apply
    rw [Act.bind_apply]
    change (if (r.machine.session.isRunning && !r.machine.session.isPlaying) = true then _ else _ :
      Act (Machine σ) Unit) r.machine = _
    rw [if_neg dead]
    rfl
  rw [RigOp.act, Act.map_apply, onMachine, Act.within, Op.act, Act.map_apply, same]

theorem onTime (op : RigOp σ) (r : Rig σ) (plays : r.machine.session.PlaysTo l o k) (ordered : l.Ordered)
    (others : op.isPlay = false) (calm : Calm (r.calls core [op]))
    (room : op.op? = some .step → r.machine.session.steps.toNat + 1 < UInt64.size) : r.OnTime core l k op where
  step is_step := by
    rcases (op.performs core r).playsTo plays ordered others calm room with
      ⟨-, takes, -⟩ | ⟨no_step, -, uncounted, -⟩
    · exact takes
    · rcases is_step with is_step | counted
      · exact absurd is_step no_step
      · exact absurd uncounted (Nat.ne_of_gt counted)
  dropped e is_live playing := by
    subst is_live
    refine ⟨apply_of_isPlaying core e playing, ?_⟩
    have dead : r.machine.session.isLive = false := by simp [Session.isLive, playing]
    exact (RigOp.session_performs core r (.apply e)).dropsLive dead
  taken e is_live idle := by
    subst is_live
    have live : r.machine.session.isLive = true := by simp [Session.isLive, plays.running, idle]
    exact (RigOp.session_performs core r (.apply e)).takesLive live calm.keys

/-- **A log is played on time.** A running session is given a log with entries in order. Whatever a host does
then, short of playing another log, as long as loads, resets and input do not make the core panic and the
session can count its steps: after `n` steps, every entry before the tick `n` has been delivered, once, at its
own tick and in its place; the session still plays exactly if the last entry is yet to come; and the next step
delivers the tick `n` before it tells the core anything else. A live event leaves everything as it is while
the log is played, and is taken otherwise. -/
theorem play_onTime (r : Rig σ) (running : r.machine.session.isRunning = true) {log : InputLog}
    {last : InputEntry} (ordered : log.Ordered) (ends : log.entries.getLast? = some last)
    (ops : List (RigOp σ)) (others : ∀ op ∈ ops, op.isPlay = false) :
    let start := r.run core [.session (.play log)]
    Calm (start.calls core ops) → start.Roomy core ops → ∀ front back, ops = front ++ back →
      let now := start.run core front
      let n := (start.calls core front).countP Exchange.isStep
      now.machine.session.steps.toNat = r.machine.session.steps.toNat + n ∧
      start.stamped core Session.released front 0 = log.stampsBefore n ∧
      (now.machine.session.isPlaying = true ↔ n ≤ last.tick.toNat) ∧
      ∀ op ∈ back.head?, now.OnTime core log n op := by
  intro start calm room front back split now n
  subst split
  have more : log.entries ≠ [] := by
    intro none
    rw [none] at ends
    cases ends
  have begun := playsTo_start core running more
  rw [calls_append] at calm
  have before : start.Roomy core front := fun first op rest split is_step =>
    room first op (rest ++ back) (by rw [split]; simp) is_step
  obtain ⟨plays, delivered⟩ := run_playsTo core front start begun ordered
    (fun op member => others op (List.mem_append_left _ member)) calm.left before
  rw [Nat.zero_add] at plays delivered
  rw [InputLog.stampsBefore_zero, List.nil_append] at delivered
  refine ⟨plays.steps, delivered, plays.isPlaying_iff ordered ends, fun op next => ?_⟩
  cases back with
  | nil => cases next
  | cons op' rest =>
    cases next
    have these := calm.right
    rw [calls_cons] at these
    exact onTime core op now plays ordered (others op (List.mem_append_right _ List.mem_cons_self)) these.left
      (room front op rest rfl)

/-- Entries of two ticks, with a tick between them that has none. -/
def gameLog : InputLog := ⟨[⟨0, .press .a⟩, ⟨2, .press .b⟩, ⟨2, .release .a⟩]⟩

/-- A session that runs, and whose core fails its first step and panics on its second one. -/
def gamePlayer : Rig (List (Option Fault)) :=
  ⟨bootedWith [none, some (.failure ⟨["broken"]⟩), none, some (.panic .other)], .fresh default⟩

/-- Two steps, with a reset in between, and a live event. -/
def gameMoves : List (RigOp (List (Option Fault))) :=
  [.session .step, .session .reset, .session .step, .session (.apply (.press .start))]

theorem play_onTime_gamePlayer :
    let start := gamePlayer.run .faulty [.session (.play gameLog)]
    let now := start.run .faulty gameMoves
    (start.calls .faulty gameMoves).countP Exchange.isStep = 2 ∧
      start.stamped .faulty Session.released gameMoves 0 = gameLog.stampsBefore 2 ∧
      now.machine.session.isPlaying = true ∧ now.OnTime .faulty gameLog 2 (.session .step) := by
  have running : gamePlayer.machine.session.isRunning = true := rfl
  have steps : (gamePlayer.run .faulty [.session (.play gameLog)]).machine.session.steps = 0 := rfl
  have calls : (gamePlayer.run .faulty [.session (.play gameLog)]).calls .faulty
      (gameMoves ++ [RigOp.session .step]) =
      [.updateKey (.event (.press .a)) (.ok ()), .step (.ok (.error ⟨["broken"]⟩)), .reset (.ok ()),
        .step (.error .other), .updateKey (.event (.press .b)) (.ok ()),
        .updateKey (.event (.release .a)) (.ok ()), .step (.ok (.ok ()))] := rfl
  have count : ((gamePlayer.run .faulty [.session (.play gameLog)]).calls .faulty gameMoves).countP
      Exchange.isStep = 2 := rfl
  have calm : Calm ((gamePlayer.run .faulty [.session (.play gameLog)]).calls .faulty
      (gameMoves ++ [RigOp.session .step])) := by
    rw [calls]
    exact ⟨by intro input p; simp, by simp, by simp⟩
  have room : (gamePlayer.run .faulty [.session (.play gameLog)]).Roomy .faulty
      (gameMoves ++ [RigOp.session .step]) := by
    have length : (gameMoves ++ [RigOp.session .step]).length = 5 := rfl
    refine roomy_of_length .faulty ?_
    rw [steps, length]
    decide
  have ends : gameLog.entries.getLast? = some ⟨2, .release .a⟩ := rfl
  have others : ∀ op ∈ gameMoves ++ [RigOp.session .step], op.isPlay = false := by simp [gameMoves, RigOp.isPlay]
  have moment := play_onTime .faulty gamePlayer running (by decide) ends (gameMoves ++ [RigOp.session .step]) others
    calm room gameMoves [RigOp.session .step] rfl
  obtain ⟨-, delivered, plays, next⟩ := moment
  rw [count] at delivered plays next
  exact ⟨count, delivered, plays.mpr (by decide), next _ rfl⟩

end Rig

end EmulatorHost
