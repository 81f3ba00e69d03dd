import EmulatorHost.Proofs.Act
import EmulatorHost.Session.Operations

/-!
# Runs of a session

* `Op`, `Answer`: an operation with its arguments, and what it answers.
* `Op.act`: what an operation does on a machine.
* `Machine.run`: one operation after the other. The caller goes on after a panic, from wherever it left
  the machine.
* `Core.faulty`: a core that meets given faults, for worked cases.
-/

namespace EmulatorHost

/-- An operation on a session, with its arguments. -/
inductive Op where
  | loadRom (rom : ByteArray)
  | reset
  /-- A live event. The press and the release of a button are such events. -/
  | apply (event : ButtonEvent)
  | step
  | display (out : ByteArray)
  | drainEvents
  | startRecording
  | stopRecording
  | play (log : InputLog)

/-- What an operation answers. -/
inductive Answer where
  | done
  | loaded (outcome : Except LoadError Unit)
  | wasReset (did : Bool)
  | stepped (outcome : Except Failure Bool)
  | shown (outcome : Except FrameBufferError ByteArray)
  | drained (events : List SessionEvent)
  | recorded (log : Option InputLog)

namespace Op

variable {σ : Type}

/-- What an operation does. -/
def act (core : Core σ) : Op → Act (Machine σ) Answer
  | loadRom rom => .loaded <$> Session.loadRom core rom
  | reset => .wasReset <$> Session.reset core
  | apply event => (fun _ => .done) <$> Session.apply core event
  | step => .stepped <$> Session.step core
  | display out => .shown <$> Session.display core out
  | drainEvents => .drained <$> Session.drainEvents
  | startRecording => (fun _ => .done) <$> Session.startRecording
  | stopRecording => .recorded <$> Session.stopRecording
  | play log => (fun _ => .done) <$> Session.play log

/-- Whether an operation is a step. -/
def isStep : Op → Bool
  | step => true
  | _ => false

/-- Whether an operation leaves recording and playing alone. -/
def keepsTapes : Op → Bool
  | startRecording => false
  | stopRecording => false
  | play _ => false
  | _ => true

/-- Whether an operation neither gives input nor steps, and leaves recording and playing alone. -/
def isQuiet : Op → Bool
  | loadRom _ => true
  | reset => true
  | display _ => true
  | drainEvents => true
  | _ => false

theorem countP_isStep_cons (op : Op) (ops : List Op) :
    (op :: ops).countP isStep = op.isStep.toNat + ops.countP isStep := by
  rw [List.countP_cons, Nat.add_comm]
  cases op.isStep <;> rfl

end Op

namespace Machine

variable {σ : Type}

/-- The machine after some operations, the first one first. -/
def run (core : Core σ) (ops : List Op) (m : Machine σ) : Machine σ :=
  ops.foldl (fun m op => (op.act core).after m) m

@[simp] theorem run_nil (core : Core σ) (m : Machine σ) : run core [] m = m := rfl

@[simp] theorem run_cons (core : Core σ) (op : Op) (ops : List Op) (m : Machine σ) :
    run core (op :: ops) m = run core ops ((op.act core).after m) := rfl

theorem run_append (core : Core σ) (front back : List Op) (m : Machine σ) :
    run core (front ++ back) m = run core back (run core front m) := List.foldl_append

end Machine

/-! ## A core that meets given faults -/

/-- Meets the next fault of a list, if there is one. A failure is answered as `failed` says. -/
def Act.meet {α : Type} (returned : α) (failed : Failure → α) : Act (List (Option Fault)) α
  | [] => .ok returned []
  | none :: faults => .ok returned faults
  | some (.failure f) :: faults => .ok (failed f) faults
  | some (.panic p) :: faults => .error p faults

/-- The core whose calls meet the faults of a list, one a call, and return once there are no more. A
failure refuses an image and fails a step. -/
def Core.faulty : Core (List (Option Fault)) where
  reset := Act.meet () fun _ => ()
  load _ := Act.meet true fun _ => false
  step := Act.meet (.ok ()) .error
  updateKey _ := Act.meet () fun _ => ()
  memory := return .empty
  base := 0
  unit := .frame

end EmulatorHost
