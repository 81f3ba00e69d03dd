import EmulatorHost.Proofs.Replay.Script
import EmulatorHost.Proofs.Replay.Tape

/-!
# What is recorded is what is replayed

* `Calm`: no input, load or reset makes the core panic. Steps may fail and panic.
* `Recorded`, `Replayed`: invariants of a session that records and of one that plays. The calls so far
  are the script of the log.
* **`Session.Performs.recorded`**, **`Session.Performs.replayed`**: operations keep them.
* **`replay_eq_recorded`**: a core that is played a log is given the same input before the same steps as
  the core the log was recorded with.
-/

namespace EmulatorHost

/-- No input, no load and no reset makes the core panic. -/
structure Calm (xs : List Exchange) : Prop where
  keys : KeysReturn xs
  loads : ∀ rom p, .load rom (.error p) ∉ xs
  resets : ∀ p, .reset (.error p) ∉ xs

theorem Calm.left {xs ys : List Exchange} (h : Calm (xs ++ ys)) : Calm xs where
  keys := h.keys.left
  loads rom p hx := h.loads rom p (List.mem_append_left _ hx)
  resets p hx := h.resets p (List.mem_append_left _ hx)

theorem Calm.right {xs ys : List Exchange} (h : Calm (xs ++ ys)) : Calm ys where
  keys := h.keys.right
  loads rom p hx := h.loads rom p (List.mem_append_right _ hx)
  resets p hx := h.resets p (List.mem_append_right _ hx)

namespace Session

/-! ## Operations that do not panic -/

variable {s s' t : Session} {xs : List Exchange}

theorem Resets.running {r : Except Panic Unit} (h : Resets s xs r s') (calm : Calm xs) :
    s'.isRunning = true := by
  cases h with
  | returned => simp [isRunning]
  | panicked p => exact absurd (List.mem_singleton_self _) (calm.resets p)

theorem Performs.running {op : Op} {r : Except Panic Answer} (h : Performs s op xs r s') (calm : Calm xs)
    (run : s.isRunning = true) (quiet : op.isQuiet = true) : s'.isRunning = true := by
  cases h with
  | loadRefused rom => exact run
  | loadPanicked rom p => exact run
  | loadAccepted h =>
    rename_i rom xs _
    have both : Calm ([.load rom (.ok true)] ++ xs) := calm
    exact h.running both.right
  | resetIgnored idle => exact run
  | resetReturned _ h => exact h.running calm
  | resetPanicked _ h => exact h.running calm
  | shown out r => exact run
  | drained => exact run
  | dropped => cases quiet
  | applied => cases quiet
  | stepIgnored => cases quiet
  | stepped => cases quiet
  | recordingStarted => cases quiet
  | recordingStopped => cases quiet
  | played => cases quiet

theorem PlaysDue.all {r : Except Panic Unit} {es : List ButtonEvent} (h : PlaysDue s xs r s')
    (due : s.due = .ok (es, t)) (keys : KeysReturn xs) :
    r = .ok () ∧ s' = t ∧ inputs xs = s.delivery.each es := by
  cases h with
  | delivered h =>
    cases h.symm.trans due
    exact ⟨rfl, rfl, inputs_forwarded _ _⟩
  | broken h => cases h.symm.trans due
  | cut h single q => exact absurd (List.mem_singleton_self _) (keys.right _ q)

theorem Steps.all {r : Except Panic Answer} {es : List ButtonEvent} (h : Steps s xs r s')
    (due : s.due = .ok (es, t)) (keys : KeysReturn xs) (room : s.steps.toNat + 1 < UInt64.size) :
    s' = { t with steps := t.steps + 1 } ∧
      inputs xs = s.delivery.each es ++ s.delivery.whole t.controller ++ [.step] := by
  cases h with
  | cut h => cases (h.all due keys).1
  | unannounced h packed q => exact absurd (List.mem_singleton_self _) (keys.right _ q)
  | uncounted h full =>
    obtain ⟨-, rfl, -⟩ := h.all due keys.left
    rw [due_eq due] at full
    exact absurd room full
  | taken h _ r =>
    obtain ⟨-, rfl, told⟩ := h.all due keys.left.left
    refine ⟨rfl, ?_⟩
    rw [inputs_append, inputs_append, told, inputs_announced, due_eq due]
    rfl

end Session

/-! ## Recording -/

section Recording

variable {d : Delivery} {c : ControllerState} {start k : Nat} {l : InputLog} {s s' : Session}
  {xs : List CoreCall} {ys : List Exchange}

/-- The session has recorded the log `l` through `k` steps, from the controller `c` and the step count
`start` on, while its core was called as `xs`. -/
structure Recorded (d : Delivery) (c : ControllerState) (start : Nat) (l : InputLog) (k : Nat)
    (s : Session) (xs : List CoreCall) : Prop where
  running : s.isRunning = true
  idle : s.playback = none
  delivery : s.delivery = d
  steps : s.steps.toNat = start + k
  tape : s.Records l k
  controller : s.controller = c.applyAll (l.eventsBefore (k + 1))
  calls : xs = l.script d c k ++ d.each (l.eventsAt k)

theorem Recorded.of_rests (h : Recorded d c start l k s xs) (rests : s.Rests s')
    (running : s'.isRunning = true) : Recorded d c start l k s' xs where
  running := running
  idle := rests.playback.trans h.idle
  delivery := rests.delivery.trans h.delivery
  steps := by rw [rests.steps, h.steps]
  tape := h.tape.of_eq rests.recorder rests.steps
  controller := rests.controller.trans h.controller
  calls := h.calls

/-- A live event is told or held, and recorded at the tick of the next step. -/
theorem Recorded.apply {e : ButtonEvent} {r : Except Panic Answer} (h : Recorded d c start l k s xs)
    (hs : s.Applies e ys r s') (keys : KeysReturn ys) :
    Recorded d c start (l.add k e) k s' (xs ++ inputs ys) := by
  obtain ⟨t, recorded, tape⟩ := (Session.Records.of_eq (t := s.hold [e]) h.tape rfl rfl).recorded e
  have kept := Session.recorded_eq recorded
  have fits := h.tape.tick_lt
  cases hs with
  | recorded hs =>
    cases hs.symm.trans recorded
    refine ⟨?_, ?_, ?_, ?_, tape, ?_, ?_⟩
    · rw [kept]; exact h.running
    · rw [kept]; exact h.idle
    · rw [kept]; exact h.delivery
    · rw [kept]; exact h.steps
    · rw [kept]
      change s.controller.applyAll [e] = _
      rw [h.controller, InputLog.eventsBefore_add fits, ControllerState.applyAll_append]
    · rw [h.calls, inputs_forwarded, h.delivery, InputLog.script_add d c l fits,
        InputLog.eventsAt_add fits, Delivery.each_append, List.append_assoc]
  | unrecorded hs => cases hs.symm.trans recorded
  | cut single q => exact absurd (List.mem_singleton_self _) (keys _ q)

theorem Recorded.step {r : Except Panic Answer} (h : Recorded d c start l k s xs)
    (hs : s.Steps ys r s') (keys : KeysReturn ys) (room : start + k + 1 < UInt64.size) :
    Recorded d c start l (k + 1) s' (xs ++ inputs ys) := by
  have due : s.due = .ok ([], s) := by rw [Session.due, h.idle]
  have room : s.steps.toNat + 1 < UInt64.size := by rw [h.steps]; exact room
  obtain ⟨rfl, told⟩ := hs.all due keys room
  have later : l.eventsAt (k + 1) = [] :=
    InputLog.eventsAt_of_lt fun e he => Nat.lt_succ_of_le (h.tape.ticks e he)
  refine ⟨h.running, h.idle, h.delivery, ?_, h.tape.step room, ?_, ?_⟩
  · dsimp only
    rw [Session.steps_toNat room, h.steps]
    rfl
  · dsimp only
    rw [h.controller, InputLog.eventsBefore_succ h.tape.ordered (k + 1), later, List.append_nil]
  · rw [told, h.calls, h.delivery, later, InputLog.script_succ, InputLog.tickCalls, ← h.controller]
    simp

/-- **Every operation keeps a recording faithful.** -/
theorem Session.Performs.recorded {op : Op} {r : Except Panic Answer} (hs : s.Performs op ys r s')
    (h : Recorded d c start l k s xs) (keeps : op.keepsTapes = true) (calm : Calm ys)
    (room : op.isStep = true → start + k + 1 < UInt64.size) :
    ∃ l', Recorded d c start l' (k + op.isStep.toNat) s' (xs ++ inputs ys) := by
  have rest : op.isQuiet = true → Recorded d c start l k s' (xs ++ inputs ys) := fun quiet => by
    rw [inputs_eq_nil (hs.isInput_eq_false quiet), List.append_nil]
    exact h.of_rests (hs.rests quiet) (hs.running calm h.running quiet)
  cases op with
  | apply e =>
    have live : s.isLive = true := by rw [isLive, h.running, isPlaying, h.idle]; rfl
    cases hs with
    | dropped _ dead => exact absurd (dead.symm.trans live) (by decide)
    | applied _ hs => exact ⟨l.add k e, h.apply hs calm.keys⟩
  | step =>
    cases hs with
    | stepIgnored idle => exact absurd (idle.symm.trans h.running) (by decide)
    | stepped _ hs => exact ⟨l, h.step hs calm.keys (room rfl)⟩
  | startRecording => cases keeps
  | stopRecording => cases keeps
  | play log => cases keeps
  | loadRom rom => exact ⟨l, rest rfl⟩
  | reset => exact ⟨l, rest rfl⟩
  | display out => exact ⟨l, rest rfl⟩
  | drainEvents => exact ⟨l, rest rfl⟩

end Recording

/-! ## Playing back -/

section Replaying

variable {d : Delivery} {c : ControllerState} {start k : Nat} {l : InputLog} {s s' : Session}
  {xs : List CoreCall} {ys : List Exchange}

/-- The session has played the log `l` through `k` steps, from the controller `c` and the step count
`start` on, while its core was called as `xs`. -/
structure Replayed (d : Delivery) (c : ControllerState) (start : Nat) (l : InputLog) (k : Nat)
    (s : Session) (xs : List CoreCall) : Prop where
  running : s.isRunning = true
  delivery : s.delivery = d
  steps : s.steps.toNat = start + k
  tape : s.Plays (l.entriesFrom k) k
  controller : s.controller = c.applyAll (l.eventsBefore k)
  calls : xs = l.script d c k

theorem Replayed.of_rests (h : Replayed d c start l k s xs) (rests : s.Rests s')
    (running : s'.isRunning = true) : Replayed d c start l k s' xs where
  running := running
  delivery := rests.delivery.trans h.delivery
  steps := by rw [rests.steps, h.steps]
  tape := h.tape.of_eq rests.playback rests.steps
  controller := rests.controller.trans h.controller
  calls := h.calls

theorem Replayed.step {r : Except Panic Answer} (h : Replayed d c start l k s xs) (ordered : l.Ordered)
    (hs : s.Steps ys r s') (keys : KeysReturn ys) (room : start + k + 1 < UInt64.size) :
    Replayed d c start l (k + 1) s' (xs ++ inputs ys) := by
  have room : s.steps.toNat + 1 < UInt64.size := by rw [h.steps]; exact room
  obtain ⟨t, due, left⟩ := h.tape.due_tick ordered
  have kept := Session.due_eq due
  obtain ⟨rfl, told⟩ := hs.all due keys room
  have controller : t.controller = c.applyAll (l.eventsBefore (k + 1)) := by
    rw [kept, InputLog.eventsBefore_succ ordered, ControllerState.applyAll_append, ← h.controller]
    rfl
  have steps : t.steps = s.steps := by rw [kept]; rfl
  refine ⟨?_, ?_, ?_, ?_, controller, ?_⟩
  · rw [kept]; exact h.running
  · rw [kept]; exact h.delivery
  · dsimp only
    rw [steps, Session.steps_toNat room, h.steps]
    rfl
  · exact left.step (by rw [steps]; exact room)
  · rw [told, h.calls, h.delivery, controller, InputLog.script_succ, InputLog.tickCalls]

/-- **Every operation keeps a replay faithful.** Live input is dropped as long as the log is played. -/
theorem Session.Performs.replayed {op : Op} {r : Except Panic Answer} (hs : s.Performs op ys r s')
    (h : Replayed d c start l k s xs) (ordered : l.Ordered) (keeps : op.keepsTapes = true)
    (playing : ∀ e, op = .apply e → s.isPlaying = true) (calm : Calm ys)
    (room : op.isStep = true → start + k + 1 < UInt64.size) :
    Replayed d c start l (k + op.isStep.toNat) s' (xs ++ inputs ys) := by
  have rest : op.isQuiet = true → Replayed d c start l k s' (xs ++ inputs ys) := fun quiet => by
    rw [inputs_eq_nil (hs.isInput_eq_false quiet), List.append_nil]
    exact h.of_rests (hs.rests quiet) (hs.running calm h.running quiet)
  cases op with
  | apply e =>
    have dead : s.isLive = false := by rw [isLive, playing e rfl]; exact Bool.and_false _
    cases hs with
    | dropped => rw [inputs_nil, List.append_nil]; exact h
    | applied live => exact absurd (dead.symm.trans live) (by decide)
  | step =>
    cases hs with
    | stepIgnored idle => exact absurd (idle.symm.trans h.running) (by decide)
    | stepped _ hs => exact h.step ordered hs calm.keys (room rfl)
  | startRecording => cases keeps
  | stopRecording => cases keeps
  | play log => cases keeps
  | loadRom rom => exact rest rfl
  | reset => exact rest rfl
  | display out => exact rest rfl
  | drainEvents => exact rest rfl

end Replaying

/-! ## Whole runs -/

namespace Machine

variable {σ : Type} (core : Core σ) {d : Delivery} {c : ControllerState} {start k : Nat} {l : InputLog}
  {xs : List CoreCall}

theorem run_recorded (ops : List Op) (m : Machine σ) (h : Recorded d c start l k m.session xs)
    (keeps : ∀ op ∈ ops, op.keepsTapes = true) (calm : Calm (m.calls core ops))
    (room : start + k + ops.countP Op.isStep < UInt64.size) :
    ∃ l', Recorded d c start l' (k + ops.countP Op.isStep) (m.run core ops).session
      (xs ++ inputs (m.calls core ops)) := by
  induction ops generalizing m l k xs with
  | nil => exact ⟨l, by simpa using h⟩
  | cons op ops ih =>
    rw [calls_cons] at calm
    rw [Op.countP_isStep_cons] at room
    obtain ⟨l', now⟩ := (op.performs core m).recorded h (keeps op List.mem_cons_self) calm.left
      (fun step => by rw [step, Bool.toNat_true] at room; omega)
    obtain ⟨l'', later⟩ := ih _ now (fun op hop => keeps op (List.mem_cons_of_mem _ hop)) calm.right
      (by omega)
    refine ⟨l'', ?_⟩
    rw [calls_cons, inputs_append, ← List.append_assoc, Op.countP_isStep_cons, ← Nat.add_assoc]
    exact later

theorem run_replayed (ops : List Op) (m : Machine σ) (h : Replayed d c start l k m.session xs)
    (ordered : l.Ordered) (keeps : ∀ op ∈ ops, op.keepsTapes = true)
    (playing : ∀ front e back, ops = front ++ .apply e :: back →
      (m.run core front).session.isPlaying = true)
    (calm : Calm (m.calls core ops)) (room : start + k + ops.countP Op.isStep < UInt64.size) :
    Replayed d c start l (k + ops.countP Op.isStep) (m.run core ops).session
      (xs ++ inputs (m.calls core ops)) := by
  induction ops generalizing m k xs with
  | nil => simpa using h
  | cons op ops ih =>
    rw [calls_cons] at calm
    rw [Op.countP_isStep_cons] at room
    have now := (op.performs core m).replayed h ordered (keeps op List.mem_cons_self)
      (fun e he => playing [] e ops (by rw [he]; rfl)) calm.left
      (fun step => by rw [step, Bool.toNat_true] at room; omega)
    have later := ih _ now (fun op hop => keeps op (List.mem_cons_of_mem _ hop))
      (fun front e back hf => playing (op :: front) e back (by rw [hf]; rfl)) calm.right (by omega)
    rw [calls_cons, inputs_append, ← List.append_assoc, Op.countP_isStep_cons, ← Nat.add_assoc]
    exact later

end Machine

/-- A run that a log is played in: the core runs, no other log is played when it begins, and live input
comes only while the log is played. -/
structure Replays {τ : Type} (core : Core τ) (n : Machine τ) (log : InputLog) (ops : List Op) : Prop where
  running : n.session.isRunning = true
  idle : n.session.playback = none
  keeps : ∀ op ∈ ops, op.keepsTapes = true
  playing : ∀ front e back, ops = front ++ .apply e :: back →
    (n.run core (.play log :: front)).session.isPlaying = true
  calm : Calm (n.calls core (.play log :: ops))
  room : n.session.steps.toNat + ops.countP Op.isStep < UInt64.size

theorem Replays.start {τ : Type} {core : Core τ} {n : Machine τ} {log : InputLog} {ops : List Op}
    (h : Replays core n log ops) : Replayed n.session.delivery n.session.controller
      n.session.steps.toNat log 0 (((Op.play log).act core).after n).session [] := by
  have played : (((Op.play log).act core).after n).session =
      if log.isEmpty then n.session
      else { n.session with playback := some (.start log n.session.steps) } := rfl
  rw [played]
  cases empty : log.isEmpty with
  | true =>
    have none : log.entries = [] := List.isEmpty_iff.mp empty
    refine ⟨h.running, rfl, rfl, ?_, by simp, rfl⟩
    rw [InputLog.entriesFrom_zero, none]
    exact (Session.plays_of_none h.idle).mpr rfl
  | false =>
    refine ⟨h.running, rfl, rfl, ?_, by simp, rfl⟩
    rw [InputLog.entriesFrom_zero]
    exact Session.plays_start n.session empty

/-- **What is recorded is what is replayed.** A recording gives a log that reads back from its stored
bytes, which count its entries in 64 bits. Played on any session with the same delivery and the same
controller, for as many steps as were attempted while it was recorded, it gives the core the same input
before every step. -/
theorem replay_eq_recorded {σ : Type} (core : Core σ) (m : Machine σ) (ops : List Op)
    (running : m.session.isRunning = true) (idle : m.session.playback = none)
    (keeps : ∀ op ∈ ops, op.keepsTapes = true) (calm : Calm (m.calls core (.startRecording :: ops)))
    (room : m.session.steps.toNat + ops.countP Op.isStep < UInt64.size) :
    ∃ log, (Op.stopRecording.act core).answer (m.run core (.startRecording :: ops)) =
        .ok (.recorded (some log)) ∧
      (log.size < UInt64.size → InputLog.ofBytes log.toBytes = .ok log) ∧
      ∀ {τ : Type} (core' : Core τ) (n : Machine τ) (ops' : List Op), Replays core' n log ops' →
        n.session.delivery = m.session.delivery → n.session.controller = m.session.controller →
        ops'.countP Op.isStep = ops.countP Op.isStep →
        throughStep (ops.countP Op.isStep) (inputs (n.calls core' (.play log :: ops'))) =
          throughStep (ops.countP Op.isStep) (inputs (m.calls core (.startRecording :: ops))) := by
  have start : Recorded m.session.delivery m.session.controller m.session.steps.toNat .empty 0
      ((Op.startRecording.act core).after m).session [] :=
    ⟨running, idle, rfl, rfl, .start m.session, rfl,
      by simp [InputLog.script, InputLog.eventsAt, InputLog.empty]⟩
  have calls : m.calls core (.startRecording :: ops) =
      ((Op.startRecording.act core).after m).calls core ops := Machine.calls_cons _ _ _ _
  rw [calls] at calm ⊢
  obtain ⟨log, recorded⟩ := Machine.run_recorded core ops _ start keeps calm (by simpa using room)
  rw [Nat.zero_add, List.nil_append] at recorded
  obtain ⟨origin, recorder, -⟩ := recorded.tape.tape
  refine ⟨log, ?_, InputLog.ofBytes_toBytes recorded.tape.ordered, ?_⟩
  · have answer : (Op.stopRecording.act core).answer (m.run core (.startRecording :: ops)) =
        .ok (.recorded ((m.run core (.startRecording :: ops)).session.recorder.map (·.log))) := rfl
    rw [answer, Machine.run_cons, recorder]
    rfl
  · intro τ core' n ops' h delivery controller count
    have calls' : n.calls core' (.play log :: ops') =
        (((Op.play log).act core').after n).calls core' ops' := Machine.calls_cons _ _ _ _
    have replayed := Machine.run_replayed core' ops' _ h.start recorded.tape.ordered h.keeps h.playing
      (calls' ▸ h.calm) (by simpa using h.room)
    rw [Nat.zero_add, List.nil_append, count, delivery, controller] at replayed
    have whole := InputLog.throughStep_script m.session.delivery m.session.controller log
      (ops.countP Op.isStep) []
    rw [List.append_nil] at whole
    rw [calls', recorded.calls, InputLog.throughStep_script, replayed.calls, whole]

/-- A session that runs, and whose core is about to meet given faults. -/
def bootedWith (faults : List (Option Fault)) : Machine (List (Option Fault)) :=
  (Machine.fresh Core.faulty .discrete (none :: none :: faults)).run Core.faulty [.loadRom .empty]

/-- The first step fails and the second one panics. -/
def recorder : Machine (List (Option Fault)) :=
  bootedWith [none, some (.failure ⟨["broken"]⟩), none, none, some (.panic .other)]

/-- Input before two steps, a reset between them, and input after the last one. -/
def recordedRun : List Op :=
  [.apply (.press .a), .step, .reset, .apply (.release .a), .step, .apply (.press .b)]

/-- A session that has taken steps before. -/
def player : Machine (List (Option Fault)) := (bootedWith []).run Core.faulty [.step, .step, .step]

/-- Two steps, with a live event and a load between them. -/
def replayedRun : List Op := [.step, .apply (.press .start), .loadRom .empty, .step]

theorem replay_eq_recorded_player :
    throughStep 2 (inputs (player.calls Core.faulty
      (.play ⟨[⟨0, .press .a⟩, ⟨1, .release .a⟩, ⟨2, .press .b⟩]⟩ :: replayedRun))) =
      [.updateKey (.event (.press .a)), .step, .updateKey (.event (.release .a)), .step] := by
  have running : recorder.session.isRunning = true := rfl
  have idle : recorder.session.playback = none := rfl
  have steps : recorder.session.steps = 0 := rfl
  have calls : recorder.calls Core.faulty (.startRecording :: recordedRun) =
      [.updateKey (.event (.press .a)) (.ok ()), .step (.ok (.error ⟨["broken"]⟩)), .reset (.ok ()),
        .updateKey (.event (.release .a)) (.ok ()), .step (.error .other),
        .updateKey (.event (.press .b)) (.ok ())] := rfl
  have calm : Calm (recorder.calls Core.faulty (.startRecording :: recordedRun)) := by
    rw [calls]
    exact ⟨by intro input p; simp, by simp, by simp⟩
  obtain ⟨log, answer, -, same⟩ := replay_eq_recorded Core.faulty recorder recordedRun running idle
    (by decide) calm (by rw [steps]; decide)
  have stopped : (Op.stopRecording.act Core.faulty).answer
      (recorder.run Core.faulty (.startRecording :: recordedRun)) =
        .ok (.recorded (some ⟨[⟨0, .press .a⟩, ⟨1, .release .a⟩, ⟨2, .press .b⟩]⟩)) := rfl
  obtain rfl := Option.some.inj (Answer.recorded.inj (Except.ok.inj (answer.symm.trans stopped)))
  have calls' : player.calls Core.faulty
      (.play ⟨[⟨0, .press .a⟩, ⟨1, .release .a⟩, ⟨2, .press .b⟩]⟩ :: replayedRun) =
      [.updateKey (.event (.press .a)) (.ok ()), .step (.ok (.ok ())), .load .empty (.ok true),
        .reset (.ok ()), .updateKey (.event (.release .a)) (.ok ()), .step (.ok (.ok ()))] := rfl
  have replays : Replays Core.faulty player
      ⟨[⟨0, .press .a⟩, ⟨1, .release .a⟩, ⟨2, .press .b⟩]⟩ replayedRun := by
    refine ⟨rfl, rfl, by decide, fun front e back h => ?_, ?_, ?_⟩
    · -- the only live event comes after one step
      rcases front with _ | ⟨_, _ | ⟨_, _ | ⟨_, _ | ⟨_, front⟩⟩⟩⟩ <;> simp [replayedRun] at h
      obtain ⟨rfl, -⟩ := h
      rfl
    · rw [calls']
      exact ⟨by intro input p; simp, by simp, by simp⟩
    · have steps' : player.session.steps = 3 := rfl
      rw [steps']
      decide
  have equal := same Core.faulty player replayedRun replays rfl rfl rfl
  rw [calls] at equal
  exact equal

end EmulatorHost
