import EmulatorHost.Proofs.Scheduler.Operation

/-!
# What a host is told

* `Reply`, `RigOp.reply`: what an operation of a host answers; `RigOp.act` is the same without the answer.
* `Rig.transcript`: the operations of a run, each with its reply or the panic that ended it.
-/

namespace EmulatorHost

/-- What an operation of a host answers. -/
inductive Reply where
  | answered (answer : Answer)
  | ticked (report : TickReport)
  | refreshed (report : RefreshReport)
  | stopped

variable {σ : Type}

namespace RigOp

/-- What a host does, with the answer it gets. -/
def reply (core : Core σ) : RigOp σ → Act (Rig σ) Reply
  | session op => .answered <$> Rig.onMachine (op.act core)
  | tick clock => .ticked <$> Scheduler.tick core clock
  | refresh renderer => .refreshed <$> Scheduler.refresh core renderer
  | stop => (fun _ => .stopped) <$> modify (·.mapScheduler Scheduler.stop)

theorem after_reply (core : Core σ) (op : RigOp σ) (r : Rig σ) :
    (op.reply core).after r = (op.act core).after r := by
  cases op <;> simp [reply, act]

end RigOp

namespace Rig

/-- The operations of a run with their replies, the first one first. -/
def transcript (core : Core σ) : List (RigOp σ) → Rig σ → List (RigOp σ × Except Panic Reply)
  | [], _ => []
  | op :: ops, r => (op, (op.reply core).answer r) :: transcript core ops ((op.act core).after r)

end Rig

end EmulatorHost
