import EmulatorHost.Proofs.Replay.Delivered
import EmulatorHost.Proofs.Replay.Fidelity

/-!
# What a recording lists

A recording lists the live events that a session takes. Entries of a log that is played meanwhile reach the
controller too, and are not recorded.

* `Session.heard`: the live events that the core took without a panic.
* **`Rig.Performs.records`**: an operation adds to a recording what was heard, at the tick of the next step.
* **`Rig.run_records`**: so does a run.
* **`Rig.stopRecording_lists`**: a recording lists live events only, and all of them that were heard.
* `Rig.RecordsAll`: a recording that lists all that is delivered; **`Rig.not_recordsAll`**.
-/

namespace EmulatorHost

/-- Whether the core panicked as it was told about input. -/
def Exchange.isBroken : Exchange → Bool
  | updateKey _ (.error _) => true
  | _ => false

/-- The events of a log with their ticks. -/
def InputLog.stamps (l : InputLog) : List (Nat × ButtonEvent) := l.entries.map InputEntry.stamp

theorem InputLog.stamps_add {l : InputLog} {n : Nat} (fits : n < UInt64.size) (e : ButtonEvent) :
    (l.add n e).stamps = l.stamps ++ [(n, e)] := by
  have tick : (UInt64.ofNat n).toNat = n := UInt64.toNat_ofNat_of_lt' fits
  simp [stamps, add, InputEntry.stamp, tick]

namespace Session

/-- The live event of an operation, unless the core panicked as it was told of it. -/
def heard (s : Session) (op : Option Op) (xs : List Exchange) : List ButtonEvent :=
  if xs.any Exchange.isBroken then [] else s.live op

variable {s s' : Session} {op : Op} {xs : List Exchange} {l : InputLog} {k : Nat}

theorem heard_eq_nil {op : Option Op} (h : s.live op = []) : s.heard op xs = [] := by
  rw [heard, h, ite_self]

theorem heard_sublist (s : Session) (op : Option Op) (xs : List Exchange) :
    (s.heard op xs).Sublist (s.live op) := by
  unfold heard
  split_ifs
  · exact List.nil_sublist _
  · exact List.Sublist.refl _

theorem not_isBroken_forwarded (d : Delivery) (es : List ButtonEvent) :
    (forwarded d es).any Exchange.isBroken = false := by
  cases d <;> simp [forwarded, Exchange.isBroken]

/-- A live event is recorded at the tick of the next step, unless the core panics as it is told of it. -/
theorem Applies.records {e : ButtonEvent} {r : Except Panic Answer} (h : Applies s e xs r s')
    (live : s.isLive = true) (tape : s.Records l k) :
    ∃ l', s'.Records l' k ∧ l'.stamps = l.stamps ++ (s.heard (some (.apply e)) xs).map (k, ·) := by
  have held : (s.hold [e]).Records l k := tape.of_eq rfl rfl
  obtain ⟨t, recorded, added⟩ := held.recorded e
  cases h with
  | recorded kept =>
    cases kept.symm.trans recorded
    refine ⟨l.add k e, added, ?_⟩
    rw [heard, not_isBroken_forwarded, if_neg nofun, Session.live, if_pos live,
      InputLog.stamps_add tape.tick_lt]
    rfl
  | unrecorded lost => cases lost.symm.trans recorded
  | cut single q => exact ⟨l, held, (List.append_nil _).symm⟩

theorem Steps.records {r : Except Panic Answer} (h : Steps s xs r s') (tape : s.Records l k) :
    s'.Records l (k + xs.countP Exchange.isStep) := by
  have told {ys : List Exchange} {o : Except Panic Unit} {t : Session} (due : PlaysDue s ys o t) :
      t.Records l k ∧ ys.countP Exchange.isStep = 0 :=
    ⟨tape.of_eq due.frame.2 due.frame.1, due.countP_isStep⟩
  cases h with
  | cut due =>
    rw [(told due).2]
    exact (told due).1
  | unannounced due packed q =>
    rw [List.countP_append, (told due).2]
    exact (told due).1
  | uncounted due full =>
    rw [List.countP_append, (told due).2, countP_announced]
    exact (told due).1
  | taken due room o =>
    rw [List.countP_append, List.countP_append, (told due).2, countP_announced]
    exact (told due).1.step room

/-- **An operation adds to a recording what was heard.** -/
theorem Performs.records {r : Except Panic Answer} (h : Performs s op xs r s') (tape : s.Records l k)
    (start : op ≠ .startRecording) (stop : op ≠ .stopRecording) :
    ∃ l', s'.Records l' (k + xs.countP Exchange.isStep) ∧
      l'.stamps = l.stamps ++ (s.heard (some op) xs).map (k, ·) := by
  by_cases quiet : op.isQuiet = true
  · have rests := h.rests quiet
    have silent : s.live (some op) = [] := by cases op <;> first | rfl | cases quiet
    rw [(h.applied_of_quiet quiet).2, heard_eq_nil silent]
    exact ⟨l, tape.of_eq rests.recorder rests.steps, (List.append_nil _).symm⟩
  · cases h with
    | dropped e dead =>
      rw [heard_eq_nil (by rw [Session.live, dead]; rfl)]
      exact ⟨l, tape, (List.append_nil _).symm⟩
    | applied live h =>
      rw [h.frame.2.2.2]
      exact h.records live tape
    | stepIgnored => exact ⟨l, tape, (List.append_nil _).symm⟩
    | stepped _ h =>
      rw [heard_eq_nil rfl]
      exact ⟨l, h.records tape, (List.append_nil _).symm⟩
    | recordingStarted => exact absurd rfl start
    | recordingStopped => exact absurd rfl stop
    | played log =>
      refine ⟨l, ?_, (List.append_nil _).symm⟩
      split_ifs
      · exact tape
      · exact tape.of_eq rfl rfl
    | _ => exact absurd rfl quiet

end Session

/-! ## Whole runs -/

/-- Whether an operation starts or stops a recording. -/
def RigOp.isTape {σ : Type} : RigOp σ → Bool
  | session .startRecording => true
  | session .stopRecording => true
  | _ => false

namespace Rig

variable {σ : Type} (core : Core σ) {l : InputLog} {k : Nat}

theorem Performs.records {op : RigOp σ} {s s' : Session} {xs : List Exchange} (h : Performs s op xs s')
    (tape : s.Records l k) (others : op.isTape = false) :
    ∃ l', s'.Records l' (k + xs.countP Exchange.isStep) ∧
      l'.stamps = l.stamps ++ (s.heard op.op? xs).map (k, ·) := by
  have same (op : Option Op) (h : s.live op = []) : ∃ l', s.Records l' (k + 0) ∧
      l'.stamps = l.stamps ++ (s.heard op []).map (k, ·) :=
    ⟨l, tape, by rw [Session.heard_eq_nil h]; exact (List.append_nil _).symm⟩
  cases h with
  | asked h => exact h.records tape (by rintro rfl; cases others) (by rintro rfl; cases others)
  | ticked clock h => exact h.records tape nofun nofun
  | waited => exact same _ rfl
  | refreshed => exact same _ rfl
  | stopped => exact same _ rfl

/-- **A run adds to a recording all that is heard, in order and with its ticks.** -/
theorem run_records (ops : List (RigOp σ)) (r : Rig σ) (tape : r.machine.session.Records l k)
    (others : ∀ op ∈ ops, op.isTape = false) :
    ∃ l', (r.run core ops).machine.session.Records l' (k + (r.calls core ops).countP Exchange.isStep) ∧
      l'.stamps = l.stamps ++ r.stamped core Session.heard ops k := by
  induction ops generalizing r l k with
  | nil => exact ⟨l, tape, (List.append_nil _).symm⟩
  | cons op ops ih =>
    obtain ⟨this, rest⟩ := List.forall_mem_cons.mp others
    obtain ⟨l', now, added⟩ := (op.performs core r).records tape this
    obtain ⟨l'', later, more⟩ := ih _ now rest
    refine ⟨l'', ?_, ?_⟩
    · rw [calls_cons, List.countP_append, ← Nat.add_assoc]
      exact later
    · rw [more, added, stamped, List.append_assoc]

theorem stamped_sublist {part whole : Session → Option Op → List Exchange → List ButtonEvent}
    (sublist : ∀ s op xs, (part s op xs).Sublist (whole s op xs)) (ops : List (RigOp σ)) (k : Nat) (r : Rig σ) :
    (r.stamped core part ops k).Sublist (r.stamped core whole ops k) := by
  induction ops generalizing r k with
  | nil => exact List.Sublist.refl _
  | cons op ops ih => exact ((sublist _ _ _).map _).append (ih _ _)

theorem stamped_heard (ops : List (RigOp σ)) (k : Nat) (r : Rig σ)
    (returns : ∀ front e back, ops = front ++ .session (.apply e) :: back →
      ∀ x ∈ (r.run core front).calls core [.session (.apply e)], x.isBroken = false) :
    r.stamped core Session.heard ops k = r.stamped core (fun s op _ => s.live op) ops k := by
  induction ops generalizing r k with
  | nil => rfl
  | cons op ops ih =>
    have later := ih (k + (r.calls core [op]).countP Exchange.isStep) ((op.act core).after r)
      fun front e back split => returns (op :: front) e back (congrArg (op :: ·) split)
    have now : r.machine.session.heard op.op? (r.calls core [op]) = r.machine.session.live op.op? := by
      by_cases apply : ∃ e, op = .session (.apply e)
      · obtain ⟨e, rfl⟩ := apply
        have sound : (r.calls core [.session (.apply e)]).any Exchange.isBroken = false :=
          List.any_eq_false.mpr fun x member => by simp [returns [] e ops rfl x member]
        rw [Session.heard, sound, if_neg nofun]
      · have silent : r.machine.session.live op.op? = [] := by
          unfold Session.live
          split
          · next e same =>
            cases op with
            | session op => exact absurd ⟨e, congrArg RigOp.session (Option.some.inj same)⟩ apply
            | tick clock => cases same
            | refresh renderer => cases same
            | stop => cases same
          · rfl
        rw [Session.heard_eq_nil silent, silent]
    rw [stamped, stamped, now, later]

/-- **What a recording lists.** A recording is started, a host does whatever it does short of starting and
stopping recordings, and the recording is stopped. Then its log lists, in order and each with the number of
steps the core was called for until then, only live events that the session took, and all of them of which the
core was told without a panic. Entries of a log that is played meanwhile are not among them, and whether the
core panics on these makes no difference. -/
theorem stopRecording_lists (r : Rig σ) (ops : List (RigOp σ)) (others : ∀ op ∈ ops, op.isTape = false) :
    let start := r.run core [.session .startRecording]
    ∃ log, (Op.stopRecording.act core).answer (start.run core ops).machine = .ok (.recorded (some log)) ∧
      log.Ordered ∧
      (start.stamped core Session.heard ops 0).Sublist log.stamps ∧
      log.stamps.Sublist (start.stamped core (fun s op _ => s.live op) ops 0) ∧
      ((∀ front e back, ops = front ++ .session (.apply e) :: back →
          ∀ x ∈ (start.run core front).calls core [.session (.apply e)], x.isBroken = false) →
        log.stamps = start.stamped core (fun s op _ => s.live op) ops 0) := by
  intro start
  obtain ⟨log, tape, lists⟩ := run_records core ops start (Session.Records.start r.machine.session) others
  have stamps : log.stamps = start.stamped core Session.heard ops 0 := lists
  obtain ⟨origin, recorder, -⟩ := tape.tape
  have answer : (Op.stopRecording.act core).answer (start.run core ops).machine =
      .ok (.recorded ((start.run core ops).machine.session.recorder.map (·.log))) := rfl
  refine ⟨log, ?_, tape.ordered, ?_, ?_, fun returns => ?_⟩
  · rw [answer, recorder]
    rfl
  · rw [stamps]
  · rw [stamps]
    exact stamped_sublist core (fun s op xs => s.heard_sublist op xs) ops 0 start
  · rw [stamps, stamped_heard core ops 0 start returns]

/-- A session that runs, and whose core panics as it is told about input for the second time. -/
def tapedGame : Rig (List (Option Fault)) := ⟨bootedWith [none, none, some (.panic .other)], .fresh default⟩

/-- A live event before a step, a log whose entry is not delivered without a panic, and a live event. -/
def tapedMoves : List (RigOp (List (Option Fault))) :=
  [.session (.apply (.press .a)), .session .step, .session (.play ⟨[⟨0, .press .b⟩]⟩), .session .step,
    .session (.apply (.release .a))]

theorem stopRecording_lists_tapedGame :
    (∀ op ∈ tapedMoves, op.isTape = false) ∧
      (tapedGame.run .faulty [RigOp.session .startRecording]).stamped .faulty Session.delivered tapedMoves 0 =
        [(0, .press .a), (1, .press .b), (1, .release .a)] ∧
      ∃ log, (Op.stopRecording.act Core.faulty).answer
          ((tapedGame.run .faulty [RigOp.session .startRecording]).run .faulty tapedMoves).machine =
          .ok (.recorded (some log)) ∧ log.stamps = [(0, .press .a), (1, .release .a)] := by
  have others : ∀ op ∈ tapedMoves, op.isTape = false := by simp [tapedMoves, RigOp.isTape]
  have delivered : (tapedGame.run .faulty [RigOp.session .startRecording]).stamped .faulty Session.delivered
      tapedMoves 0 = [(0, .press .a), (1, .press .b), (1, .release .a)] := rfl
  have heard : (tapedGame.run .faulty [RigOp.session .startRecording]).stamped .faulty Session.heard
      tapedMoves 0 = [(0, .press .a), (1, .release .a)] := rfl
  have live : (tapedGame.run .faulty [RigOp.session .startRecording]).stamped .faulty (fun s op _ => s.live op)
      tapedMoves 0 = [(0, .press .a), (1, .release .a)] := rfl
  obtain ⟨log, answer, -, all, only, -⟩ := stopRecording_lists .faulty tapedGame tapedMoves others
  rw [heard] at all
  rw [live] at only
  exact ⟨others, delivered, log, answer, only.antisymm all⟩

/-- The recording of a run lists all that is delivered to the controller, wherever it comes from. -/
def RecordsAll (ops : List (RigOp σ)) (r : Rig σ) : Prop :=
  let start := r.run core [.session .startRecording]
  ∃ log, (Op.stopRecording.act core).answer (start.run core ops).machine = .ok (.recorded (some log)) ∧
    log.stamps = start.stamped core Session.delivered ops 0

/-- An entry of a log that is played does not get into a recording. Neither does a live event on which the
core panics. -/
theorem not_recordsAll :
    ¬ RecordsAll .faulty [.session (.play ⟨[⟨0, .press .a⟩]⟩), .session .step]
        ⟨bootedWith [], .fresh default⟩ ∧
      ¬ RecordsAll .faulty [.session (.apply (.press .a))]
        ⟨bootedWith [some (.panic .other)], .fresh default⟩ := by
  constructor
  · rintro ⟨log, answer, lists⟩
    obtain rfl := Option.some.inj (Answer.recorded.inj (Except.ok.inj answer))
    cases lists
  · rintro ⟨log, answer, lists⟩
    obtain rfl := Option.some.inj (Answer.recorded.inj (Except.ok.inj answer))
    cases lists

end Rig

end EmulatorHost
