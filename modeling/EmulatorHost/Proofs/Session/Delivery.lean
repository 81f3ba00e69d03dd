import EmulatorHost.Proofs.Session.Effect

/-!
# Packed and discrete delivery

Packed delivery tells the core the whole controller before every step. Discrete delivery tells it every
event as it is applied. A session is the same with either.

* `SameResults`: as far as they go, the cores of two runs answer loads, resets and steps alike.
* `toldAtSteps`: the controller a core was told right before each of its steps.
* `heldAtSteps`: the controller that all the single events before each step make up.
* **`discrete_eq_packed`**: after every operation the two sessions differ in their delivery only, and at
  every step the two cores know the same controller.
-/

namespace EmulatorHost

/-! ## What two runs have in common -/

/-- The outcomes of the loads, in order. -/
def loadResults (xs : List Exchange) : List (Except Panic Bool) :=
  xs.filterMap fun
    | .load _ r => some r
    | _ => none

/-- The outcomes of the resets, in order. -/
def resetResults (xs : List Exchange) : List (Except Panic Unit) :=
  xs.filterMap fun
    | .reset r => some r
    | _ => none

/-- The outcomes of the steps, in order. -/
def stepResults (xs : List Exchange) : List (Except Panic (Except Failure Unit)) :=
  xs.filterMap fun
    | .step r => some r
    | _ => none

/-- Where both lists go on, they have the same values. -/
def Alike {α : Type} (as bs : List α) : Prop :=
  ∀ (i : Nat) (a b : α), as[i]? = some a → bs[i]? = some b → a = b

/-- As far as both runs go, their first loads end alike, their second loads, and so on, and so do their
resets and their steps. -/
structure SameResults (xs ys : List Exchange) : Prop where
  loads : Alike (loadResults xs) (loadResults ys)
  resets : Alike (resetResults xs) (resetResults ys)
  steps : Alike (stepResults xs) (stepResults ys)

/-- At each step, the controller that the call right before it told the core, if it did; `last` is what
the call before the list told. -/
def toldAtSteps (last : Option ControllerState) : List Exchange → List (Option ControllerState)
  | [] => []
  | .step _ :: xs => last :: toldAtSteps none xs
  | .updateKey (.state c) _ :: xs => toldAtSteps (some c) xs
  | _ :: xs => toldAtSteps none xs

/-- At each step, the controller that the single events so far make up, from `held` on. -/
def heldAtSteps (held : ControllerState) : List Exchange → List ControllerState
  | [] => []
  | .step _ :: xs => held :: heldAtSteps held xs
  | .updateKey (.event e) _ :: xs => heldAtSteps (held.apply e) xs
  | _ :: xs => heldAtSteps held xs

namespace Alike

variable {α : Type} {a b : α} {as bs : List α}

theorem head (h : Alike (a :: as) (b :: bs)) : a = b := h 0 a b rfl rfl

theorem refl (as : List α) : Alike as as := fun _ _ _ ha hb => Option.some.inj (ha.symm.trans hb)

theorem tail (h : Alike (a :: as) (b :: bs)) : Alike as bs := fun i x y hx hy => h (i + 1) x y hx hy

end Alike

namespace SameResults

variable {xs ys : List Exchange}

theorem load {rom rom' : ByteArray} {r r' : Except Panic Bool}
    (h : SameResults (.load rom r :: xs) (.load rom' r' :: ys)) : r = r' ∧ SameResults xs ys :=
  ⟨h.loads.head, h.loads.tail, h.resets, h.steps⟩

theorem reset {r r' : Except Panic Unit} (h : SameResults (.reset r :: xs) (.reset r' :: ys)) :
    r = r' ∧ SameResults xs ys :=
  ⟨h.resets.head, h.loads, h.resets.tail, h.steps⟩

theorem step {r r' : Except Panic (Except Failure Unit)}
    (h : SameResults (.step r :: xs) (.step r' :: ys)) : r = r' ∧ SameResults xs ys :=
  ⟨h.steps.head, h.loads, h.resets, h.steps.tail⟩

theorem skip_left {input : KeyInput} {r : Except Panic Unit}
    (h : SameResults (.updateKey input r :: xs) ys) : SameResults xs ys :=
  ⟨h.loads, h.resets, h.steps⟩

theorem skip_right {input : KeyInput} {r : Except Panic Unit}
    (h : SameResults xs (.updateKey input r :: ys)) : SameResults xs ys :=
  ⟨h.loads, h.resets, h.steps⟩

theorem skip_forwarded (es : List ButtonEvent)
    (h : SameResults xs (Session.forwarded .discrete es ++ ys)) : SameResults xs ys := by
  induction es with
  | nil => exact h
  | cons e es ih => exact ih h.skip_right

end SameResults

theorem heldAtSteps_forwarded (c : ControllerState) (es : List ButtonEvent) (ys : List Exchange) :
    heldAtSteps c (Session.forwarded .discrete es ++ ys) = heldAtSteps (c.applyAll es) ys := by
  induction es generalizing c with
  | nil => rfl
  | cons e es ih => exact ih (c.apply e)

namespace Session

/-! ## The same session with another delivery -/

/-- The session with another delivery, for a core that has its picture at `base`. -/
def via (d : Delivery) (base : Nat) (s : Session) : Session := { s with delivery := d, base := base }

section Via

variable (d : Delivery) (b : Nat) (s : Session)

theorem enter_via (p : Phase) : (s.via d b).enter p = (s.enter p).via d b := by
  unfold enter
  split_ifs <;> first | rfl | contradiction

theorem due_via : (s.via d b).due = s.due.map fun (es, t) => (es, t.via d b) := by
  have same : (s.via d b).playback = s.playback := rfl
  unfold due
  rw [same]
  cases s.playback with
  | none => rfl
  | some p =>
    change (p.due s.steps).map _ = ((p.due s.steps).map _).map _
    cases p.due s.steps <;> rfl

theorem recorded_via (e : ButtonEvent) :
    (s.via d b).recorded e = (s.recorded e).map fun t => t.via d b := by
  have same : (s.via d b).recorder = s.recorder := rfl
  unfold recorded
  rw [same]
  cases s.recorder with
  | none => rfl
  | some r =>
    change (r.record s.steps e).map _ = ((r.record s.steps e).map _).map _
    cases r.record s.steps e <;> rfl

end Via

end Session

/-! ## What the two cores know -/

/-- While the one core is called as `xs` and the other as `ys`, they know the same at every step. The
single events of `ys` lead from `held` to `held'`. -/
def Agree (xs ys : List Exchange) (held held' : ControllerState) : Prop :=
  ∃ out : List ControllerState,
    (∀ last, ∃ last', ∀ us, toldAtSteps last (xs ++ us) = out.map some ++ toldAtSteps last' us) ∧
    ∀ vs, heldAtSteps held (ys ++ vs) = out ++ heldAtSteps held' vs

namespace Agree

variable {xs ys us vs : List Exchange} {c d e : ControllerState}

theorem nil : Agree [] [] c c := ⟨[], fun last => ⟨last, fun _ => rfl⟩, fun _ => rfl⟩

theorem append (h : Agree xs ys c d) (h' : Agree us vs d e) : Agree (xs ++ us) (ys ++ vs) c e := by
  obtain ⟨front, told, held⟩ := h
  obtain ⟨back, told', held'⟩ := h'
  refine ⟨front ++ back, fun last => ?_, fun zs => ?_⟩
  · obtain ⟨mid, hm⟩ := told last
    obtain ⟨last', hl⟩ := told' mid
    refine ⟨last', fun zs => ?_⟩
    rw [List.append_assoc, hm, hl, List.map_append, List.append_assoc]
  · rw [List.append_assoc, held, held', List.append_assoc]

theorem load (rom : ByteArray) (r : Except Panic Bool) : Agree [.load rom r] [.load rom r] c c :=
  ⟨[], fun _ => ⟨none, fun _ => rfl⟩, fun _ => rfl⟩

theorem reset (r : Except Panic Unit) : Agree [.reset r] [.reset r] c c :=
  ⟨[], fun _ => ⟨none, fun _ => rfl⟩, fun _ => rfl⟩

theorem forwarded (es : List ButtonEvent) :
    Agree [] (Session.forwarded .discrete es) c (c.applyAll es) :=
  ⟨[], fun last => ⟨last, fun _ => rfl⟩, heldAtSteps_forwarded c es⟩

theorem told (r : Except Panic Unit) : Agree [.updateKey (.state c) r] [] c c :=
  ⟨[], fun _ => ⟨some c, fun _ => rfl⟩, fun _ => rfl⟩

theorem step (r : Except Panic Unit) (r' : Except Panic (Except Failure Unit)) :
    Agree [.updateKey (.state c) r, .step r'] [.step r'] c c :=
  ⟨[c], fun _ => ⟨none, fun _ => rfl⟩, fun _ => rfl⟩

end Agree

/-! ## One operation -/

/-- Where two sessions stand after the calls `xs` and `ys`, when `us` and `vs` are still to come. -/
structure InStep (b : Nat) (s s' t' : Session) (xs us ys vs : List Exchange) : Prop where
  packed : s'.delivery = .packed
  same : t' = s'.via .discrete b
  rest : SameResults us vs
  agree : Agree xs ys s.controller s'.controller

section OneOperation

variable {b : Nat} {s s' t' : Session} {xs us ys vs : List Exchange}

theorem Session.Resets.inStep {r r' : Except Panic Unit} (packed : s.delivery = .packed)
    (hx : Resets s xs r s') (hy : Resets (s.via .discrete b) ys r' t')
    (h : SameResults (xs ++ us) (ys ++ vs)) : r = r' ∧ InStep b s s' t' xs us ys vs := by
  cases hx with
  | returned =>
    cases hy with
    | returned =>
      refine ⟨rfl, by simpa using packed, ?_, h.reset.2, ?_⟩
      · rw [enter_via, enter_via]
      · simpa using Agree.reset _
    | panicked p => cases h.reset.1
  | panicked p =>
    cases hy with
    | returned => cases h.reset.1
    | panicked q =>
      cases h.reset.1
      refine ⟨rfl, by simpa using packed, enter_via _ _ _ _, h.reset.2, ?_⟩
      simpa using Agree.reset _

/-- No call that delivers what is due panics, so both sessions apply all of it. -/
theorem Session.PlaysDue.inStep {r r' : Except Panic Unit} (packed : s.delivery = .packed)
    (hx : PlaysDue s xs r s') (hy : PlaysDue (s.via .discrete b) ys r' t') (returns : KeysReturn ys)
    (h : SameResults (xs ++ us) (ys ++ vs)) : r = r' ∧ InStep b s s' t' xs us ys vs := by
  have due := due_via .discrete b s
  cases hx with
  | delivered hs =>
    rw [hs] at due
    have kept := due_eq hs
    rename_i es
    cases hy with
    | delivered ht =>
      rw [due] at ht
      cases ht
      rw [packed] at h ⊢
      refine ⟨rfl, by rw [kept]; exact packed, rfl, h.skip_forwarded es, ?_⟩
      rw [kept]
      exact Agree.forwarded es
    | broken ht => rw [due] at ht; cases ht
    | cut ht single q => exact absurd (List.mem_singleton_self _) (returns.right _ q)
  | broken hs =>
    rw [hs] at due
    cases hy with
    | delivered ht => rw [due] at ht; cases ht
    | broken ht =>
      rw [due] at ht
      cases ht
      exact ⟨rfl, packed, rfl, h, Agree.nil⟩
    | cut ht single q => exact absurd (List.mem_singleton_self _) (returns.right _ q)
  | cut hs single q => rw [packed] at single; cases single

theorem Session.Applies.inStep {e : ButtonEvent} {r r' : Except Panic Answer}
    (packed : s.delivery = .packed) (hx : Applies s e xs r s')
    (hy : Applies (s.via .discrete b) e ys r' t') (returns : KeysReturn ys)
    (h : SameResults (xs ++ us) (ys ++ vs)) : InStep b s s' t' xs us ys vs := by
  have both : ((s.hold [e]).via .discrete b).recorded e = _ := recorded_via .discrete b (s.hold [e]) e
  cases hx with
  | recorded hs =>
    rw [hs] at both
    have kept := recorded_eq hs
    cases hy with
    | recorded ht =>
      cases both.symm.trans ht
      rw [packed] at h ⊢
      refine ⟨by rw [kept]; exact packed, rfl, h.skip_forwarded [e], ?_⟩
      rw [kept]
      exact Agree.forwarded [e]
    | unrecorded ht => cases both.symm.trans ht
    | cut single q => exact absurd (List.mem_singleton_self _) (returns _ q)
  | unrecorded hs =>
    rw [hs] at both
    cases hy with
    | recorded ht => cases both.symm.trans ht
    | unrecorded ht =>
      rw [packed] at h ⊢
      exact ⟨packed, rfl, h.skip_forwarded [e], Agree.forwarded [e]⟩
    | cut single q => exact absurd (List.mem_singleton_self _) (returns _ q)
  | cut single q => rw [packed] at single; cases single

theorem announced_packed {s : Session} (h : s.delivery = .packed) :
    s.announced = [.updateKey (.state s.controller) (.ok ())] := by
  rw [Session.announced, h]

theorem Session.Steps.inStep {r r' : Except Panic Answer} (packed : s.delivery = .packed)
    (hx : Steps s xs r s') (hy : Steps (s.via .discrete b) ys r' t') (kx : KeysReturn xs)
    (ky : KeysReturn ys) (h : SameResults (xs ++ us) (ys ++ vs)) : InStep b s s' t' xs us ys vs := by
  cases hx with
  | cut hs =>
    cases hy with
    | cut ht => exact (hs.inStep packed ht ky h).2
    | unannounced ht _ q => exact absurd (List.mem_singleton_self _) (ky.right _ q)
    | uncounted ht full =>
      rw [List.append_assoc] at h
      cases (hs.inStep packed ht ky.left h).1
    | taken ht room =>
      rw [List.append_assoc, List.append_assoc] at h
      cases (hs.inStep packed ht ky.left.left h).1
  | unannounced hs _ q => exact absurd (List.mem_singleton_self _) (kx.right _ q)
  | uncounted hs full =>
    rw [List.append_assoc] at h
    cases hy with
    | cut ht => cases (hs.inStep packed ht ky h).1
    | unannounced ht _ q => exact absurd (List.mem_singleton_self _) (ky.right _ q)
    | uncounted ht _ =>
      rw [List.append_assoc] at h
      obtain ⟨-, after⟩ := hs.inStep packed ht ky.left h
      have rest := after.rest
      rw [announced_packed after.packed, after.same] at rest ⊢
      exact ⟨after.packed, rfl, rest.skip_left, after.agree.append (Agree.told _)⟩
    | taken ht room =>
      rw [List.append_assoc, List.append_assoc] at h
      obtain ⟨-, after⟩ := hs.inStep packed ht ky.left.left h
      rw [after.same] at room
      exact absurd room full
  | taken hs room r =>
    rw [List.append_assoc, List.append_assoc] at h
    cases hy with
    | cut ht => cases (hs.inStep packed ht ky h).1
    | unannounced ht _ q => exact absurd (List.mem_singleton_self _) (ky.right _ q)
    | uncounted ht full =>
      rw [List.append_assoc] at h
      obtain ⟨-, after⟩ := hs.inStep packed ht ky.left h
      rw [after.same] at full
      exact absurd room full
    | taken ht _ r' =>
      rw [List.append_assoc, List.append_assoc] at h
      obtain ⟨-, after⟩ := hs.inStep packed ht ky.left.left h
      have rest := after.rest
      rw [announced_packed after.packed, after.same] at rest ⊢
      obtain ⟨rfl, left⟩ := rest.skip_left.step
      rw [List.append_assoc, List.append_assoc]
      exact ⟨after.packed, rfl, left, after.agree.append (Agree.step _ r)⟩

/-- **One operation keeps two sessions in step.** -/
theorem Session.Performs.inStep {op : Op} {r r' : Except Panic Answer} (packed : s.delivery = .packed)
    (hx : Performs s op xs r s') (hy : Performs (s.via .discrete b) op ys r' t')
    (kx : KeysReturn xs) (ky : KeysReturn ys) (h : SameResults (xs ++ us) (ys ++ vs)) :
    InStep b s s' t' xs us ys vs := by
  cases hx with
  | loadRefused rom =>
    cases hy with
    | loadRefused => exact ⟨packed, rfl, h.load.2, Agree.load rom _⟩
    | loadPanicked _ p => cases h.load.1
    | loadAccepted ht => cases h.load.1
  | loadPanicked rom p =>
    cases hy with
    | loadRefused => cases h.load.1
    | loadPanicked _ q =>
      cases h.load.1
      exact ⟨packed, rfl, h.load.2, Agree.load rom _⟩
    | loadAccepted ht => cases h.load.1
  | loadAccepted hs =>
    rename_i rom _ _
    cases hy with
    | loadRefused => cases h.load.1
    | loadPanicked _ q => cases h.load.1
    | loadAccepted ht =>
      have start : ((s.via .discrete b).emit (.romLoaded rom.size)).enter .romLoaded =
          ((s.emit (.romLoaded rom.size)).enter .romLoaded).via .discrete b :=
        enter_via .discrete b (s.emit (.romLoaded rom.size)) .romLoaded
      rw [start] at ht
      have entered : ((s.emit (.romLoaded rom.size)).enter .romLoaded).delivery = .packed := by
        rw [enter_delivery]
        exact packed
      obtain ⟨-, after⟩ := hs.inStep entered ht h.load.2
      have agree := (Agree.load rom (.ok true)).append after.agree
      rw [enter_controller] at agree
      exact ⟨after.packed, after.same, after.rest, agree⟩
  | resetIgnored idle =>
    cases hy with
    | resetIgnored => exact ⟨packed, rfl, h, Agree.nil⟩
    | resetReturned run => exact absurd (idle.symm.trans run) (by decide)
    | resetPanicked run => exact absurd (idle.symm.trans run) (by decide)
  | resetReturned run hs =>
    cases hy with
    | resetIgnored idle => exact absurd (idle.symm.trans run) (by decide)
    | resetReturned _ ht =>
      obtain ⟨-, after⟩ := hs.inStep packed ht h
      exact ⟨after.packed, by rw [after.same]; rfl, after.rest, after.agree⟩
    | resetPanicked _ ht => cases (hs.inStep packed ht h).1
  | resetPanicked run hs =>
    cases hy with
    | resetIgnored idle => exact absurd (idle.symm.trans run) (by decide)
    | resetReturned _ ht => cases (hs.inStep packed ht h).1
    | resetPanicked _ ht => exact (hs.inStep packed ht h).2
  | dropped e dead =>
    cases hy with
    | dropped => exact ⟨packed, rfl, h, Agree.nil⟩
    | applied live => exact absurd (dead.symm.trans live) (by decide)
  | applied live hs =>
    cases hy with
    | dropped _ dead => exact absurd (dead.symm.trans live) (by decide)
    | applied _ ht => exact hs.inStep packed ht ky h
  | stepIgnored idle =>
    cases hy with
    | stepIgnored => exact ⟨packed, rfl, h, Agree.nil⟩
    | stepped run => exact absurd (idle.symm.trans run) (by decide)
  | stepped run hs =>
    cases hy with
    | stepIgnored idle => exact absurd (idle.symm.trans run) (by decide)
    | stepped _ ht => exact hs.inStep packed ht kx ky h
  | shown out r => cases hy; exact ⟨packed, rfl, h, Agree.nil⟩
  | drained => cases hy; exact ⟨packed, rfl, h, Agree.nil⟩
  | recordingStarted => cases hy; exact ⟨packed, rfl, h, Agree.nil⟩
  | recordingStopped => cases hy; exact ⟨packed, rfl, h, Agree.nil⟩
  | played log =>
    cases hy
    split_ifs <;> exact ⟨packed, rfl, h, Agree.nil⟩

end OneOperation

/-! ## Whole runs -/

variable {σ τ : Type} (A : Core σ) (B : Core τ)

theorem Machine.run_inStep (b : Nat) (ops : List Op) (m : Machine σ) (n : Machine τ)
    (packed : m.session.delivery = .packed) (same : n.session = m.session.via .discrete b)
    (km : KeysReturn (calls A ops m)) (kn : KeysReturn (calls B ops n))
    (h : SameResults (calls A ops m) (calls B ops n)) :
    (∀ front back, ops = front ++ back →
      (run B front n).session = (run A front m).session.via .discrete b) ∧
    ∀ last, toldAtSteps last (calls A ops m) =
      (heldAtSteps m.session.controller (calls B ops n)).map some := by
  induction ops generalizing m n with
  | nil =>
    refine ⟨fun front back hf => ?_, fun _ => rfl⟩
    obtain ⟨rfl, rfl⟩ := List.nil_eq_append_iff.mp hf
    exact same
  | cons op ops ih =>
    rw [calls_cons A] at km h
    rw [calls_cons B] at kn h
    have hm := op.performs A m
    have hn := op.performs B n
    rw [same] at hn
    have now := hm.inStep packed hn km.left kn.left h
    obtain ⟨later, know⟩ := ih _ _ now.packed now.same km.right kn.right now.rest
    refine ⟨fun front back hf => ?_, fun last => ?_⟩
    · cases front with
      | nil => exact same
      | cons op' front =>
        obtain ⟨rfl, rfl⟩ := List.cons_eq_cons.mp hf
        exact later front back rfl
    · obtain ⟨out, told, held⟩ := now.agree
      obtain ⟨last', ht⟩ := told last
      rw [calls_cons A, calls_cons B, ht, held, know last', List.map_append]

/-- **Packed and discrete delivery agree.** Whatever a host does with two sessions that begin alike but
for their delivery, they stay alike but for their delivery, as long as the cores answer loads, resets
and steps alike and take all input. At every step the one core has just been told the controller that
the single events told the other one make up. -/
theorem discrete_eq_packed (w : σ) (v : τ) (ops : List Op)
    (kw : KeysReturn ((Machine.fresh A .packed w).calls A ops))
    (kv : KeysReturn ((Machine.fresh B .discrete v).calls B ops))
    (h : SameResults ((Machine.fresh A .packed w).calls A ops)
      ((Machine.fresh B .discrete v).calls B ops)) :
    (∀ front back, ops = front ++ back →
      ((Machine.fresh B .discrete v).run B front).session =
        ((Machine.fresh A .packed w).run A front).session.via .discrete B.base) ∧
    toldAtSteps none ((Machine.fresh A .packed w).calls A ops) =
      (heldAtSteps .empty ((Machine.fresh B .discrete v).calls B ops)).map some := by
  obtain ⟨later, know⟩ := Machine.run_inStep A B B.base ops (.fresh A .packed w) (.fresh B .discrete v)
    rfl rfl kw kv h
  exact ⟨later, know none⟩

/-- Live input, a step that fails, a replay and a step that panics. -/
def faultyRun : List Op :=
  [.loadRom .empty, .apply (.press .a), .step, .play ⟨[⟨0, .press .b⟩, ⟨1, .release .a⟩]⟩, .step, .step]

/-- The faults met on the way: by either delivery, the call after the first input is the first step. -/
def faultsMet : List (Option Fault) :=
  [none, none, none, some (.failure ⟨["broken"]⟩), none, some (.panic .other)]

theorem discrete_eq_packed_faultyRun :
    (((Machine.fresh Core.faulty .discrete faultsMet).run Core.faulty faultyRun).session =
      ((Machine.fresh Core.faulty .packed faultsMet).run Core.faulty faultyRun).session.via .discrete 0) ∧
    heldAtSteps .empty ((Machine.fresh Core.faulty .discrete faultsMet).calls Core.faulty faultyRun) =
      [⟨1⟩, ⟨3⟩, ⟨2⟩] ∧
    toldAtSteps none ((Machine.fresh Core.faulty .packed faultsMet).calls Core.faulty faultyRun) =
      [some ⟨1⟩, some ⟨3⟩, some ⟨2⟩] := by
  have packed : (Machine.fresh Core.faulty .packed faultsMet).calls Core.faulty faultyRun =
      [.load .empty (.ok true), .reset (.ok ()), .updateKey (.state ⟨1⟩) (.ok ()),
        .step (.ok (.error ⟨["broken"]⟩)), .updateKey (.state ⟨3⟩) (.ok ()), .step (.error .other),
        .updateKey (.state ⟨2⟩) (.ok ()), .step (.ok (.ok ()))] := rfl
  have discrete : (Machine.fresh Core.faulty .discrete faultsMet).calls Core.faulty faultyRun =
      [.load .empty (.ok true), .reset (.ok ()), .updateKey (.event (.press .a)) (.ok ()),
        .step (.ok (.error ⟨["broken"]⟩)), .updateKey (.event (.press .b)) (.ok ()),
        .step (.error .other), .updateKey (.event (.release .a)) (.ok ()), .step (.ok (.ok ()))] := rfl
  obtain ⟨later, know⟩ := discrete_eq_packed Core.faulty Core.faulty faultsMet faultsMet faultyRun
    (by rw [packed]; intro input p; simp) (by rw [discrete]; intro input p; simp)
    (by rw [packed, discrete]; exact ⟨Alike.refl _, Alike.refl _, Alike.refl _⟩)
  have held : heldAtSteps .empty ((Machine.fresh Core.faulty .discrete faultsMet).calls Core.faulty
      faultyRun) = [⟨1⟩, ⟨3⟩, ⟨2⟩] := by
    rw [discrete]
    rfl
  refine ⟨later faultyRun [] (List.append_nil _).symm, held, ?_⟩
  rw [know, held]
  rfl

end EmulatorHost
