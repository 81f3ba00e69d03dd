import EmulatorHost.Proofs.Replay.Tape
import EmulatorHost.Proofs.Scheduler.Effect
import EmulatorHost.Proofs.Scheduler.Refresh

/-!
# What a session reckons with its tapes

A session counts its steps, and both tapes reckon their ticks from that count and from the step at which they
began. Such a session would panic if the count ran out of numbers, if a tape had begun later than now, if an
entry of a recording went back, or if what is due of a log were no range of it. It never comes to that.

* `Session.Reckons`: all that a session is to reckon next can be reckoned.
* `BreaksOff`: the last of some calls on the core ended in a panic. **`Session.Performs.breaksOff`**: that is
  the only way in which an operation on such a session panics.
* **`Rig.run_reckons`**: this holds whatever a host does and whatever becomes of the calls on the core.
-/

namespace EmulatorHost

/-- The panic in which a call ended. -/
def Exchange.panic? : Exchange → Option Panic
  | load _ (.error q) => some q
  | reset (.error q) => some q
  | updateKey _ (.error q) => some q
  | step (.error q) => some q
  | _ => none

/-- The last of the calls ended in the panic `q`. -/
def BreaksOff (xs : List Exchange) (q : Panic) : Prop := ∃ front x, xs = front ++ [x] ∧ x.panic? = some q

theorem BreaksOff.of_last {x : Exchange} {q : Panic} (front : List Exchange) (h : x.panic? = some q) :
    BreaksOff (front ++ [x]) q := ⟨front, x, rfl, h⟩

namespace Session

/-- All that a session is to reckon next can be reckoned. -/
structure Reckons (s : Session) : Prop where
  /-- The recording can tell the tick of an event, and takes an event of that tick. -/
  stamp : ∀ r, s.recorder = some r →
    stepsSince r.origin s.steps = .ok (s.steps - r.origin) ∧ r.log.accepts (s.steps - r.origin) = true
  /-- The playback can tell the tick of the next step, and what is due of it is a range of its log. -/
  range : ∀ p, s.playback = some p → stepsSince p.origin s.steps = .ok (s.steps - p.origin) ∧
    p.next ≤ p.reach (s.steps - p.origin) ∧ p.reach (s.steps - p.origin) ≤ p.log.size
  /-- The next step can be counted. -/
  count : s.steps.toNat + 1 < UInt64.size

variable {s t : Session} {op : Op} {xs : List Exchange}

theorem Abreast.reckons (h : s.Abreast) (room : s.steps.toNat + 1 < UInt64.size) : s.Reckons where
  stamp r tape := ⟨stepsSince_of_le (h.recorder r tape).begun, (h.recorder r tape).accepts⟩
  range p tape := by
    have inside := Nat.le_of_lt (h.playback p tape).more
    exact ⟨stepsSince_of_le (h.playback p tape).begun, p.next_le_reach _, Playback.reach_le_size inside _⟩
  count := room

/-! ## What an operation can panic on -/

theorem PlaysDue.breaksOff {r : Except Panic Unit} {q : Panic} (h : PlaysDue s xs r t) (hs : s.Abreast)
    (panicked : r = .error q) : BreaksOff xs q := by
  cases h with
  | delivered => cases panicked
  | broken due => exact absurd due (hs.due_ne_error _)
  | cut =>
    cases panicked
    exact .of_last _ rfl

theorem Applies.breaksOff {e : ButtonEvent} {r : Except Panic Answer} {q : Panic} (h : Applies s e xs r t)
    (hs : s.Abreast) (panicked : r = .error q) : BreaksOff xs q := by
  cases h with
  | recorded => cases panicked
  | unrecorded lost =>
    have held : (s.hold [e]).Abreast := hs.of_eq rfl rfl rfl
    exact absurd lost (held.recorded_ne_error e _)
  | cut =>
    cases panicked
    exact .of_last [] rfl

theorem Steps.breaksOff {r : Except Panic Answer} {q : Panic} (h : Steps s xs r t) (hs : s.Abreast)
    (room : s.steps.toNat + 1 < UInt64.size) (panicked : r = .error q) : BreaksOff xs q := by
  cases h with
  | cut due =>
    cases panicked
    exact due.breaksOff hs rfl
  | unannounced =>
    cases panicked
    exact .of_last _ rfl
  | uncounted due full =>
    rw [due.frame.1] at full
    exact absurd room full
  | taken due room o =>
    cases o with
    | ok => cases panicked
    | error q' =>
      cases panicked
      exact .of_last _ rfl

/-- **An operation panics only as a call on the core does**, and makes no call after that. A display makes none
of these calls. -/
theorem Performs.breaksOff {r : Except Panic Answer} {q : Panic} (h : Performs s op xs r t) (hs : s.Abreast)
    (room : s.steps.toNat + 1 < UInt64.size) (others : ∀ out, op ≠ .display out) (panicked : r = .error q) :
    BreaksOff xs q := by
  cases h with
  | loadPanicked =>
    cases panicked
    exact .of_last [] rfl
  | loadAccepted h =>
    cases h with
    | returned => cases panicked
    | panicked p =>
      cases panicked
      exact .of_last [_] rfl
  | resetPanicked _ h =>
    cases panicked
    cases h
    exact .of_last [] rfl
  | applied _ h => exact h.breaksOff hs panicked
  | stepped _ h => exact h.breaksOff hs room panicked
  | shown out => exact absurd rfl (others out)
  | _ => cases panicked

end Session

variable {σ : Type}

/-- The core panicked with `q` as an operation called it. A display asks it for nothing but its memory. -/
def Op.Blames (core : Core σ) (m : Machine σ) (q : Panic) : Op → Prop
  | display _ => core.memory.answer m.world = .error q
  | op => BreaksOff (m.calls core [op]) q

/-- A display panics only as the core is asked for its memory: a picture in standard form does not run out. -/
theorem Session.display_panicked {core : Core σ} {out : ByteArray} {m : Machine σ} {q : Panic}
    (panicked : (Session.display core out).answer m = .error q) : core.memory.answer m.world = .error q := by
  cases asked : core.memory m.world with
  | error p v =>
    rw [Act.answer_of_error (Scheduler.display_of_error core asked out)] at panicked
    cases panicked
    exact Act.answer_of_error asked
  | ok memory v =>
    rw [Act.answer, Scheduler.display_of_ok core asked out] at panicked
    by_cases room : out.size = m.session.frameBuffer.displaySize
    · rw [FrameBuffer.writeDisplay_eq (Nat.le_refl 3) room] at panicked
      cases shown : m.session.frameBuffer.picture? memory <;> rw [shown] at panicked <;> cases panicked
    · rw [FrameBuffer.writeDisplay, if_pos room] at panicked
      cases panicked

/-- **An operation panics only as the core does.** -/
theorem Op.blames (core : Core σ) (op : Op) {m : Machine σ} {q : Panic} (abreast : m.session.Abreast)
    (room : m.session.steps.toNat + 1 < UInt64.size) (panicked : (op.act core).answer m = .error q) :
    op.Blames core m q := by
  have others (other : ∀ out, op ≠ .display out) : BreaksOff (m.calls core [op]) q :=
    (op.performs core m).breaksOff abreast room other panicked
  cases op with
  | display out =>
    rw [Op.act, Act.answer_map] at panicked
    have shown : (Session.display core out).answer m = .error q := by
      cases drawn : (Session.display core out).answer m <;> rw [drawn] at panicked <;> cases panicked
      rfl
    exact Session.display_panicked shown
  | _ =>
    refine others fun out same => ?_
    cases same

/-! ## Whole runs -/

namespace Rig

variable (core : Core σ)

theorem Performs.abreast {op : RigOp σ} {s t : Session} {xs : List Exchange} (h : Performs s op xs t)
    (hs : s.Abreast) : t.Abreast := by
  cases h with
  | asked h => exact h.abreast hs
  | ticked clock h => exact h.abreast hs
  | waited => exact hs
  | refreshed => exact hs
  | stopped => exact hs

theorem run_abreast (ops : List (RigOp σ)) {r : Rig σ} (h : r.machine.session.Abreast) :
    (r.run core ops).machine.session.Abreast :=
  run_induction (P := fun r => r.machine.session.Abreast) (fun op r hs => (op.performs core r).abreast hs) ops h

theorem run_steps (d : Delivery) (w : σ) (s : Scheduler) (ops : List (RigOp σ)) :
    (run core ops ⟨.fresh core d w, s⟩).machine.session.steps.toNat =
      (calls core ops ⟨.fresh core d w, s⟩).countP Exchange.isStep :=
  (run_keeps core ops ⟨.fresh core d w, s⟩ (.fresh d core.base)).counted

/-- **What a session reckons never fails.** A host does whatever it does with a fresh session and its scheduler,
and goes on after every panic; the core may refuse images, and fail or panic in any call. As long as fewer
than `2 ^ 64 - 1` steps were attempted, both tapes are abreast of the step count: the recording and the playback
began no later than now, the log recorded is in order and has no entry ahead of the next step, and the playback
has entries left and has passed none that is ahead. So the session can reckon all it has to, and whatever
is asked of it next, in whatever world, it panics only as the core does. A tick is no exception, since it asks
the session for a step. The logs played need not even be in order. -/
theorem run_reckons (d : Delivery) (w : σ) (pace : Scheduler) (ops : List (RigOp σ))
    (few : (calls core ops ⟨.fresh core d w, pace⟩).countP Exchange.isStep < UInt64.size - 1) :
    let s := (run core ops ⟨.fresh core d w, pace⟩).machine.session
    s.Abreast ∧ s.Reckons ∧
      ∀ (m : Machine σ) (op : Op) (q : Panic), m.session = s → (op.act core).answer m = .error q →
        op.Blames core m q := by
  intro s
  have abreast : s.Abreast := run_abreast core ops (Session.Abreast.fresh core.base d)
  have room : s.steps.toNat + 1 < UInt64.size := by
    have count : s.steps.toNat = _ := run_steps core d w pace ops
    omega
  refine ⟨abreast, abreast.reckons room, fun m op q same panicked => ?_⟩
  exact op.blames core (same ▸ abreast) (same ▸ room) panicked

/-- A recording under way and two entries that are played, of which the second one is not due yet. -/
def busyMoves : List (RigOp (List (Option Fault))) :=
  [.session (.loadRom .empty), .session .startRecording, .session (.apply (.press .a)),
    .session (.play ⟨[⟨0, .press .b⟩, ⟨2, .release .b⟩]⟩), .session .step, .session .step]

/-- A session on a core that fails its first step, and panics as it is told about input for the next two. -/
def busyGame : Rig (List (Option Fault)) :=
  ⟨.fresh .faulty .packed
    [none, none, none, some (.failure ⟨["broken"]⟩), some (.panic .other), some (.panic (.text "lost"))],
    .fresh default⟩

theorem run_reckons_busyGame :
    let now := busyGame.run .faulty busyMoves
    (busyGame.calls .faulty busyMoves).countP Exchange.isStep = 1 ∧
      now.machine.session.recorder = some ⟨⟨[⟨0, .press .a⟩]⟩, 0⟩ ∧
      now.machine.session.playback = some ⟨⟨[⟨0, .press .b⟩, ⟨2, .release .b⟩]⟩, 1, 0⟩ ∧
      now.machine.session.Abreast ∧ now.machine.session.Reckons ∧
      (Op.step.act .faulty).answer now.machine = .error (.text "lost") ∧
      Op.step.Blames .faulty now.machine (.text "lost") := by
  intro now
  have count : (busyGame.calls .faulty busyMoves).countP Exchange.isStep = 1 := rfl
  have few : (busyGame.calls .faulty busyMoves).countP Exchange.isStep < UInt64.size - 1 := by
    rw [count]
    decide
  have lost : (Op.step.act .faulty).answer (busyGame.run .faulty busyMoves).machine = .error (.text "lost") := rfl
  obtain ⟨abreast, reckons, blames⟩ := run_reckons .faulty .packed
    [none, none, none, some (.failure ⟨["broken"]⟩), some (.panic .other), some (.panic (.text "lost"))]
    (.fresh default) busyMoves few
  exact ⟨count, rfl, rfl, abreast, reckons, lost, blames now.machine .step (.text "lost") rfl lost⟩

end Rig

end EmulatorHost
