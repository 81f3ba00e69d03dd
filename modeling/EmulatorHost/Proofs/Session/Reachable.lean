import EmulatorHost.Proofs.Replay.Tape

/-!
# Sessions a host can meet

* `Session.Reachable`: a fresh session, or what an operation left of such a one.
* **`Session.Reachable.abreast`**: its tapes are abreast of its steps.
* **`Session.Steps.once`**: as long as the core takes its input, a step of it calls the core's step once.
-/

namespace EmulatorHost

namespace Session

/-- A session that a host can meet: a fresh one, or one that an operation left, however it ended. -/
inductive Reachable : Session → Prop
  | fresh (base : Nat) (d : Delivery) : Reachable (.fresh base d)
  | next {s t : Session} {op : Op} {xs : List Exchange} {r : Except Panic Answer} (before : Reachable s)
    (h : s.Performs op xs r t) : Reachable t

variable {s t : Session} {xs : List Exchange}

/-- **The tapes of a session that a host can meet are abreast of its steps.** -/
theorem Reachable.abreast (h : s.Reachable) : s.Abreast := by
  induction h with
  | fresh base d => exact .fresh base d
  | next _ h ih => exact h.abreast ih

/-- What is due before a step is applied in full, unless the core panics on being told. -/
theorem PlaysDue.returns {q : Panic} (h : PlaysDue s xs (.error q) t) (hs : s.Abreast) : ¬ KeysReturn xs := by
  intro returns
  cases h with
  | broken due => exact absurd due (hs.due_ne_error _)
  | cut due single => exact returns _ _ (List.mem_append_right _ (List.mem_singleton_self _))

theorem Performs.steps_of_running {r : Except Panic Answer} (h : Performs s .step xs r t)
    (running : s.isRunning = true) : Steps s xs r t := by
  cases h with
  | stepIgnored idle => cases running.symm.trans idle
  | stepped _ h => exact h

/-- **A step calls the core's step once**, if the core takes its input and the step can be counted. -/
theorem Steps.once {r : Except Panic Answer} (h : Steps s xs r t) (reachable : s.Reachable)
    (returns : KeysReturn xs) (room : s.steps.toNat + 1 < UInt64.size) :
    xs.countP Exchange.isStep = 1 ∧ t.steps.toNat = s.steps.toNat + 1 := by
  cases h with
  | cut due => exact absurd returns (due.returns reachable.abreast)
  | unannounced due packed q =>
    exact absurd (List.mem_append_right _ (List.mem_singleton_self _)) (returns _ q)
  | uncounted due full =>
    cases due with
    | delivered due =>
      rw [due_eq due] at full
      exact absurd room full
  | taken due _ o =>
    cases due with
    | delivered due =>
      rw [List.countP_append, List.countP_append, countP_forwarded, countP_announced, due_eq due]
      exact ⟨rfl, steps_toNat room⟩

end Session

namespace Machine

variable {σ : Type}

theorem run_reachable (core : Core σ) (ops : List Op) (m : Machine σ) (h : m.session.Reachable) :
    (run core ops m).session.Reachable := by
  induction ops generalizing m with
  | nil => exact h
  | cons op ops ih => exact ih _ (h.next (op.performs core m))

end Machine

end EmulatorHost
