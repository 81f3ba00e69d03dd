import EmulatorHost.Act
import Mathlib.Tactic.SplitIfs

/-!
# Running actions

* `Act.after`, `Act.answer`: the world an action leaves, and what came of it, panic or not.
* `Act.Agrees`: from two worlds, two actions answer the same and leave related worlds;
  **`Act.Agrees.andThen`**: so do two such actions one after the other.
* `Act.Projects`: seen through a view of its world, an action does what another action does.
* `Act.Keeps`: whatever comes of it, an action leaves what is seen of its world as it was.
* `Act.Moves`: whatever comes of it, an action leads to a related world.
* `Act.Ends`: an action ends in one way if it answers, and in another if it panics.
* `bind_apply` and the lemmas beside it run an action on a world.
-/

namespace EmulatorHost.Act

variable {σ τ α β : Type}

/-- The world an action leaves, whatever came of it. -/
def after (x : Act σ α) (w : σ) : σ :=
  match x w with
  | .ok _ v => v
  | .error _ v => v

/-- What came of an action. -/
def answer (x : Act σ α) (w : σ) : Except Panic α :=
  match x w with
  | .ok a _ => .ok a
  | .error p _ => .error p

/-! ## Running an action -/

theorem bind_apply (x : Act σ α) (k : α → Act σ β) (w : σ) :
    (x >>= k) w = match x w with
      | .ok a v => k a v
      | .error p v => .error p v := by
  change EStateM.bind x k w = _
  unfold EStateM.bind
  cases x w <;> rfl

theorem map_apply (f : α → β) (x : Act σ α) (w : σ) :
    (f <$> x) w = match x w with
      | .ok a v => .ok (f a) v
      | .error p v => .error p v := by
  change EStateM.map f x w = _
  unfold EStateM.map
  cases x w <;> rfl

theorem modify_apply (f : σ → σ) (w : σ) : (modify f : Act σ Unit) w = .ok () (f w) := rfl

theorem after_of_ok {x : Act σ α} {w v : σ} {a : α} (h : x w = .ok a v) : after x w = v := by
  rw [after, h]

theorem after_of_error {x : Act σ α} {w v : σ} {p : Panic} (h : x w = .error p v) :
    after x w = v := by
  rw [after, h]

theorem answer_of_ok {x : Act σ α} {w v : σ} {a : α} (h : x w = .ok a v) : answer x w = .ok a := by
  rw [answer, h]

theorem answer_of_error {x : Act σ α} {w v : σ} {p : Panic} (h : x w = .error p v) :
    answer x w = .error p := by
  rw [answer, h]

theorem eq_of_answer {x : Act σ α} {w : σ} {a : α} (h : answer x w = .ok a) : x w = .ok a (after x w) := by
  unfold answer after at *
  cases hx : x w <;> rw [hx] at h <;> cases h
  rfl

theorem eq_of_answer_error {x : Act σ α} {w : σ} {p : Panic} (h : answer x w = .error p) :
    x w = .error p (after x w) := by
  unfold answer after at *
  cases hx : x w <;> rw [hx] at h <;> cases h
  rfl

@[simp] theorem after_map (f : α → β) (x : Act σ α) (w : σ) : after (f <$> x) w = after x w := by
  rw [after, after, map_apply]
  cases x w <;> rfl

@[simp] theorem answer_map (f : α → β) (x : Act σ α) (w : σ) :
    answer (f <$> x) w = (answer x w).map f := by
  rw [answer, answer, map_apply]
  cases x w <;> rfl

theorem after_andThen (x : Act σ α) (k : α → Act σ β) (w : σ) :
    after (x >>= k) w = after x w ∨ ∃ a, after (x >>= k) w = after (k a) (after x w) := by
  cases h : x w with
  | ok a v =>
    refine .inr ⟨a, ?_⟩
    rw [after_of_ok h, after, bind_apply, h]
    rfl
  | error p v =>
    refine .inl ?_
    rw [after_of_error h, after, bind_apply, h]

theorem after_andThen_of_ok {x : Act σ α} {k : α → Act σ β} {w : σ} {a : α} (h : answer x w = .ok a) :
    after (x >>= k) w = after (k a) (after x w) := by
  rw [after, bind_apply, eq_of_answer h]
  rfl

theorem after_andThen_of_error {x : Act σ α} {k : α → Act σ β} {w : σ} {p : Panic}
    (h : answer x w = .error p) : after (x >>= k) w = after x w := by
  unfold answer at h
  rw [after, after, bind_apply]
  cases hx : x w with
  | ok a v =>
    rw [hx] at h
    cases h
  | error q v => rfl

theorem after_andThen_quiet {k : α → Act σ β} (quiet : ∀ a w, after (k a) w = w) (x : Act σ α) (w : σ) :
    after (x >>= k) w = after x w := by
  rcases after_andThen x k w with h | ⟨a, h⟩
  · exact h
  · rw [h, quiet]

theorem after_within {ρ : Type} (part : ρ → σ) (put : σ → ρ → ρ) (x : Act σ α) (w : ρ) :
    after (x.within part put) w = put (after x (part w)) w := by
  unfold after within
  cases x (part w) <;> rfl

theorem answer_within {ρ : Type} (part : ρ → σ) (put : σ → ρ → ρ) (x : Act σ α) (w : ρ) :
    answer (x.within part put) w = answer x (part w) := by
  unfold answer within
  cases x (part w) <;> rfl

/-- What becomes of an answer once faults are caught. -/
def caught : Except Panic (Except Failure α) → Except Fault α
  | .ok (.ok a) => .ok a
  | .ok (.error f) => .error (.failure f)
  | .error p => .error (.panic p)

theorem guarded_apply (x : Act σ (Except Failure α)) (w : σ) :
    guarded x w = .ok (caught (answer x w)) (after x w) := by
  unfold guarded answer after
  rcases x w with ⟨_ | _, _⟩ | _ <;> rfl

theorem after_guarded (x : Act σ (Except Failure α)) (w : σ) : after (guarded x) w = after x w :=
  after_of_ok (guarded_apply x w)

/-! ## Agreement -/

/-- From the worlds `w` and `v` two actions give the same answer, and leave worlds related by `R`. -/
def Agrees (R : σ → τ → Prop) (x : Act σ α) (y : Act τ α) (w : σ) (v : τ) : Prop :=
  answer x w = answer y v ∧ R (after x w) (after y v)

namespace Agrees

variable {R : σ → τ → Prop} {x : Act σ α} {y : Act τ α} {w : σ} {v : τ}

/-- **Actions that agree also agree one after the other.** -/
theorem andThen {k : α → Act σ β} {l : α → Act τ β} (hx : Agrees R x y w v)
    (hk : ∀ a w v, R w v → Agrees R (k a) (l a) w v) : Agrees R (x >>= k) (y >>= l) w v := by
  unfold Agrees answer after at hx ⊢
  rw [bind_apply, bind_apply]
  cases hw : x w <;> cases hv : y v <;> rw [hw, hv] at hx <;> obtain ⟨same, related⟩ := hx <;> cases same
  · exact hk _ _ _ related
  · exact ⟨rfl, related⟩

/-- What is read of the worlds may differ, as long as what is done with it agrees. -/
theorem get_andThen {k : σ → Act σ β} {l : τ → Act τ β} (h : Agrees R (k w) (l v) w v) :
    Agrees R (get >>= k) (get >>= l) w v := h

theorem of_pure (h : R w v) (a : α) : Agrees R (pure a) (pure a) w v := ⟨rfl, h⟩

theorem of_throw (h : R w v) (p : Panic) : Agrees R (throw p : Act σ α) (throw p) w v := ⟨rfl, h⟩

theorem of_ofExcept (h : R w v) (e : Except Panic α) : Agrees R (ofExcept e) (ofExcept e) w v := by
  cases e <;> exact ⟨rfl, h⟩

theorem of_modify {f : σ → σ} {g : τ → τ} (h : R (f w) (g v)) :
    Agrees R (modify f : Act σ Unit) (modify g) w v := ⟨rfl, h⟩

theorem of_map (f : α → β) (h : Agrees R x y w v) : Agrees R (f <$> x) (f <$> y) w v := by
  unfold Agrees
  rw [answer_map, answer_map, after_map, after_map, h.1]
  exact ⟨rfl, h.2⟩

theorem of_ite {c : Prop} [Decidable c] {x' : Act σ α} {y' : Act τ α} (h : c → Agrees R x y w v)
    (h' : ¬ c → Agrees R x' y' w v) : Agrees R (if c then x else x') (if c then y else y') w v := by
  split_ifs with hc
  · exact h hc
  · exact h' hc

theorem of_guarded {x : Act σ (Except Failure α)} {y : Act τ (Except Failure α)}
    (h : Agrees R x y w v) : Agrees R (guarded x) (guarded y) w v := by
  unfold Agrees
  rw [answer_of_ok (guarded_apply x w), answer_of_ok (guarded_apply y v), after_guarded, after_guarded,
    h.1]
  exact ⟨rfl, h.2⟩

/-- Actions on parts of two worlds agree where the parts can be put back. -/
theorem of_within {ρ π : Type} {part : ρ → σ} {put : σ → ρ → ρ} {part' : π → τ} {put' : τ → π → π}
    {S : ρ → π → Prop} {w : ρ} {v : π} (h : Agrees R x y (part w) (part' v))
    (hput : ∀ a b, R a b → S (put a w) (put' b v)) :
    Agrees S (x.within part put) (y.within part' put') w v := by
  unfold Agrees
  rw [answer_within, answer_within, after_within, after_within, h.1]
  exact ⟨rfl, hput _ _ h.2⟩

end Agrees

/-! ## Views -/

/-- A result seen through a view of the world it leaves. -/
def view (f : σ → τ) : EStateM.Result Panic σ α → EStateM.Result Panic τ α
  | .ok a w => .ok a (f w)
  | .error p w => .error p (f w)

/-- Seen through `f`, the action `x` does at `w` what `y` does. -/
def Projects (f : σ → τ) (x : Act σ α) (y : Act τ α) (w : σ) : Prop := y (f w) = view f (x w)

namespace Projects

variable {f : σ → τ} {x : Act σ α} {y : Act τ α} {w : σ}

theorem after_eq (h : Projects f x y w) : after y (f w) = f (after x w) := by
  unfold Projects at h
  rw [after, after, h]
  cases x w <;> rfl

theorem answer_eq (h : Projects f x y w) : answer y (f w) = answer x w := by
  unfold Projects at h
  rw [answer, answer, h]
  cases x w <;> rfl

theorem of_agrees (h : Agrees (fun w v => f w = v) x y w (f w)) : Projects f x y w := by
  unfold Agrees answer after at h
  unfold Projects
  cases hw : x w <;> cases hv : y (f w) <;> rw [hw, hv] at h <;> obtain ⟨same, related⟩ := h <;> cases same
  · exact congrArg _ related.symm
  · exact congrArg _ related.symm

theorem agrees (h : Projects f x y w) : Agrees (fun w v => f w = v) x y w (f w) :=
  ⟨h.answer_eq.symm, h.after_eq.symm⟩

theorem alike {v : σ} (hw : Projects f x y w) (hv : Projects f x y v) (same : f w = f v) :
    Agrees (fun w v => f w = f v) x x w v := by
  rw [Agrees, ← hw.answer_eq, ← hv.answer_eq, ← hw.after_eq, ← hv.after_eq, same]
  exact ⟨rfl, rfl⟩

end Projects

/-! ## What stays as it was -/

/-- Whatever comes of it, the action leaves what `f` sees of the world as it was. -/
def Keeps (f : σ → τ) (x : Act σ α) : Prop := ∀ w, f (after x w) = f w

namespace Keeps

variable {f : σ → τ} {x : Act σ α} {k : α → Act σ β}

theorem andThen (hx : Keeps f x) (hk : ∀ a, Keeps f (k a)) : Keeps f (x >>= k) := by
  intro w
  rcases after_andThen x k w with h | ⟨a, h⟩
  · rw [h, hx]
  · rw [h, hk, hx]

theorem of_pure (a : α) : Keeps f (pure a : Act σ α) := fun _ => rfl

theorem of_get : Keeps f (get : Act σ _) := fun _ => rfl

theorem of_throw (p : Panic) : Keeps f (throw p : Act σ α) := fun _ => rfl

theorem of_guarded {x : Act σ (Except Failure α)} (h : Keeps f x) : Keeps f x.guarded := by
  intro w
  rw [after_guarded, h]

end Keeps

/-- Whatever comes of it, the action leads from a world to one related to it. -/
def Moves (R : σ → σ → Prop) (x : Act σ α) : Prop := ∀ w, R w (after x w)

theorem Moves.andThen {R S T : σ → σ → Prop} {x : Act σ α} {k : α → Act σ β}
    (stop : ∀ {u v}, R u v → T u v) (trans : ∀ {u v w}, R u v → S v w → T u w) (hx : Moves R x)
    (hk : ∀ a, Moves S (k a)) : Moves T (x >>= k) := by
  intro w
  rcases after_andThen x k w with h | ⟨a, h⟩
  · rw [h]
    exact stop (hx w)
  · rw [h]
    exact trans (hx w) (hk a _)

/-! ## How an action ends -/

/-- From the world `w` the action ends with `Q` if it answers, and with `E` if it panics. -/
def Ends (x : Act σ α) (w : σ) (Q : α → σ → Prop) (E : σ → Prop) : Prop :=
  match x w with
  | .ok a v => Q a v
  | .error _ v => E v

namespace Ends

variable {x : Act σ α} {w : σ} {P Q : α → σ → Prop} {E : σ → Prop}

theorem andThen {k : α → Act σ β} {Q : β → σ → Prop} (hx : Ends x w P E)
    (hk : ∀ a v, P a v → Ends (k a) v Q E) : Ends (x >>= k) w Q E := by
  unfold Ends at hx ⊢
  rw [bind_apply]
  cases h : x w <;> rw [h] at hx
  · exact hk _ _ hx
  · exact hx

theorem of_pure {a : α} (h : Q a w) : Ends (pure a) w Q E := h

theorem of_ok (h : ∀ a v, x w = .ok a v → Q a v) : Ends x w Q fun _ => True := by
  unfold Ends
  cases hx : x w with
  | ok a v => exact h a v hx
  | error p v => trivial

theorem get_andThen {k : σ → Act σ β} {Q : β → σ → Prop} (h : Ends (k w) w Q E) :
    Ends (get >>= k) w Q E := h

theorem imp {F : σ → Prop} (h : Ends x w P E) (hQ : ∀ a v, P a v → Q a v) (hE : ∀ v, E v → F v) :
    Ends x w Q F := by
  unfold Ends at *
  cases hx : x w <;> rw [hx] at h
  · exact hQ _ _ h
  · exact hE _ h

theorem of_map {f : α → β} {Q : β → σ → Prop} (h : Ends x w (fun a => Q (f a)) E) :
    Ends (f <$> x) w Q E := by
  unfold Ends at *
  rw [map_apply]
  cases hx : x w <;> rw [hx] at h <;> exact h

theorem of_within {ρ : Type} {part : ρ → σ} {put : σ → ρ → ρ} {w : ρ} {Q : α → ρ → Prop}
    {F : ρ → Prop} (h : Ends x (part w) (fun a v => Q a (put v w)) fun v => F (put v w)) :
    Ends (x.within part put) w Q F := by
  unfold Ends within at *
  cases hx : x (part w) <;> rw [hx] at h <;> exact h

theorem of_ite {c : Prop} [Decidable c] {x' : Act σ α} (h : c → Ends x w Q E)
    (h' : ¬ c → Ends x' w Q E) : Ends (if c then x else x') w Q E := by
  split_ifs with hc
  · exact h hc
  · exact h' hc

theorem of_ofExcept {e : Except Panic α} (answered : ∀ a, e = .ok a → Q a w)
    (panicked : ∀ p, e = .error p → E w) : Ends (ofExcept e) w Q E := by
  cases e
  · exact panicked _ rfl
  · exact answered _ rfl

theorem leaves {P : σ → Prop} (h : Ends x w (fun _ => P) P) : P (after x w) := by
  unfold Ends after at *
  cases hx : x w <;> rw [hx] at h <;> exact h

theorem of_after {P : σ → Prop} (h : P (after x w)) : Ends x w (fun _ => P) P := by
  unfold Ends
  unfold after at h
  cases hx : x w <;> rw [hx] at h <;> exact h

theorem and_moves {R : σ → σ → Prop} (h : Ends x w Q E) (moves : Moves R x) :
    Ends x w (fun a v => Q a v ∧ R w v) fun v => E v ∧ R w v := by
  have moved := moves w
  unfold Ends after at *
  cases hx : x w <;> rw [hx] at h moved <;> exact ⟨h, moved⟩

theorem of_guarded {x : Act σ (Except Failure α)} {Q : Except Fault α → σ → Prop}
    (h : Q (caught (answer x w)) (after x w)) : Ends x.guarded w Q E := by
  rw [Ends, guarded_apply]
  exact h

theorem of_moves {R : σ → σ → Prop} (moves : Moves R x) : Ends x w (fun _ v => R w v) fun v => R w v :=
  of_after (moves w)

end Ends

end EmulatorHost.Act
