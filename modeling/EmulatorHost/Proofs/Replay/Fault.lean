import EmulatorHost.Proofs.Replay.Tape
import EmulatorHost.Proofs.Scheduler.Effect

/-!
# Faults while a log is played

A core may panic while it is told about input. The scheduler swallows the fault and the session goes on.

* `Rig.applied`: the events that a run applies to the controller; **`Rig.run_controller`**: the controller
  is what they make of it.
* `StillComing`: what is left of a log is still played, in order and once.
* **`stillComing_iff`**: so it is in packed delivery. In discrete delivery what is left is lost, unless the
  core panicked on the last entry of the log.
-/

namespace EmulatorHost

/-! ## Events that are applied -/

/-- The single event that a call tells the core. -/
def Exchange.event? : Exchange → Option ButtonEvent
  | updateKey (.event e) _ => some e
  | _ => none

/-- The single events that calls tell the core. -/
def toldEvents (xs : List Exchange) : List ButtonEvent := xs.filterMap Exchange.event?

theorem toldEvents_append (xs ys : List Exchange) :
    toldEvents (xs ++ ys) = toldEvents xs ++ toldEvents ys := List.filterMap_append

theorem toldEvents_forwarded (es : List ButtonEvent) :
    toldEvents (Session.forwarded .discrete es) = es := by
  induction es with
  | nil => rfl
  | cons e es ih => exact congrArg (e :: ·) ih

/-- The session operation that an operation of a host may come down to. -/
def RigOp.op? {σ : Type} : RigOp σ → Option Op
  | session op => some op
  | tick _ => some .step
  | refresh _ => none
  | stop => none

namespace Session

/-- The events that are due before the next step. -/
def dueEvents (s : Session) : List ButtonEvent :=
  match s.due with
  | .ok (es, _) => es
  | .error _ => []

/-- The events that an operation applied to the controller while it made the calls `xs`. Discrete delivery
tells the core each of them. Packed delivery applies all that are due before it tells the core anything. -/
def applied (s : Session) (op : Option Op) (xs : List Exchange) : List ButtonEvent :=
  match s.delivery, op with
  | .discrete, _ => toldEvents xs
  | .packed, some (.apply e) => if s.isLive then [e] else []
  | .packed, some .step => if xs.isEmpty then [] else s.dueEvents
  | .packed, _ => []

variable {s s' t : Session} {op : Op} {xs : List Exchange} {es : List ButtonEvent}

theorem applied_discrete (h : s.delivery = .discrete) (op : Option Op) (xs : List Exchange) :
    s.applied op xs = toldEvents xs := by
  unfold applied
  rw [h]

theorem applied_apply (h : s.delivery = .packed) (e : ButtonEvent) (xs : List Exchange) :
    s.applied (some (.apply e)) xs = if s.isLive then [e] else [] := by
  unfold applied
  rw [h]

theorem dueEvents_eq (due : s.due = .ok (es, t)) : s.dueEvents = es := by rw [dueEvents, due]

theorem applied_step (h : s.delivery = .packed) (hx : xs ≠ []) :
    s.applied (some .step) xs = s.dueEvents := by
  unfold applied
  rw [h]
  exact if_neg (by simpa using hx)

theorem applied_nil (op : Option Op) (h : ∀ e, op = some (.apply e) → s.isLive = false) :
    s.applied op [] = [] := by
  unfold applied
  cases s.delivery with
  | discrete => rfl
  | packed =>
    split
    · rfl
    · rw [h _ rfl]; rfl
    · rfl
    · rfl

theorem Performs.applied_of_quiet {r : Except Panic Answer} (h : Performs s op xs r s')
    (quiet : op.isQuiet = true) :
    s.applied (some op) xs = [] ∧ xs.countP Exchange.isStep = 0 := by
  have noInput := h.isInput_eq_false quiet
  refine ⟨?_, List.countP_eq_zero.mpr fun x hx => ?_⟩
  · unfold Session.applied
    cases s.delivery with
    | packed => cases op <;> first | rfl | cases quiet
    | discrete =>
      refine List.filterMap_eq_nil_iff.mpr fun x hx => ?_
      have := noInput x hx
      cases x <;> first | rfl | cases this
  · have := noInput x hx
    cases x <;> simp [Exchange.isStep, Exchange.isInput] at this ⊢

/-! ## The controller is what the events make of it -/

theorem Applies.controller {e : ButtonEvent} {r : Except Panic Answer} (h : Applies s e xs r s')
    (live : s.isLive = true) :
    s.applied (some (.apply e)) xs = [e] ∧ s'.controller = s.controller.applyAll [e] := by
  constructor
  · cases hd : s.delivery with
    | packed => rw [applied_apply hd, if_pos live]
    | discrete =>
      rw [applied_discrete hd]
      cases h with
      | recorded => rw [hd]; rfl
      | unrecorded => rw [hd]; rfl
      | cut => rfl
  · cases h with
    | recorded kept => rw [recorded_eq kept]; rfl
    | unrecorded => rfl
    | cut => rfl

theorem toldEvents_announced (s : Session) : toldEvents s.announced = [] := by
  unfold announced
  cases s.delivery <;> rfl

/-- Once what is due has been delivered, and the core been told whatever the step needs, all that was due
has been applied. -/
theorem PlaysDue.applied {zs : List Exchange} (h : PlaysDue s xs (.ok ()) t) (told : toldEvents zs = [])
    (more : s.delivery = .packed → zs ≠ []) :
    s.due = .ok (s.dueEvents, t) ∧ s.applied (some .step) (xs ++ zs) = s.dueEvents ∧
      xs.countP Exchange.isStep = 0 := by
  cases h with
  | delivered due =>
    rw [dueEvents_eq due]
    refine ⟨due, ?_, countP_forwarded _ _⟩
    cases hd : s.delivery with
    | packed => rw [applied_step hd (by simpa using more hd), dueEvents_eq due]
    | discrete => rw [applied_discrete hd, toldEvents_append, toldEvents_forwarded, told, List.append_nil]

/-- A step breaks off while it delivers what is due, or it applies all of it. -/
theorem Steps.applied {r : Except Panic Answer} (h : Steps s xs r s') :
    (∃ q, PlaysDue s xs (.error q) s') ∨ ∃ t, s.due = .ok (s.dueEvents, t) ∧
      s.applied (some .step) xs = s.dueEvents ∧
      ((s' = t ∧ xs.countP Exchange.isStep = 0) ∨
        (t.steps.toNat + 1 < UInt64.size ∧ s' = { t with steps := t.steps + 1 } ∧
          xs.countP Exchange.isStep = 1)) := by
  cases h with
  | cut due => exact .inl ⟨_, due⟩
  | unannounced due packed q =>
    have told : toldEvents [.updateKey (.state s'.controller) (.error q)] = [] := rfl
    obtain ⟨ok, applied, count⟩ := due.applied told (by simp)
    refine .inr ⟨s', ok, applied, .inl ⟨rfl, ?_⟩⟩
    rw [List.countP_append, count]
    rfl
  | uncounted due full =>
    have packed : s.delivery = .packed → s'.announced ≠ [] := fun packed => by
      cases due with
      | delivered due => rw [due_eq due]; simp [announced, hold, packed]
    obtain ⟨ok, applied, count⟩ := due.applied (toldEvents_announced s') packed
    refine .inr ⟨s', ok, applied, .inl ⟨rfl, ?_⟩⟩
    rw [List.countP_append, count, countP_announced]
  | taken due room r =>
    rename_i t
    have told : toldEvents (t.announced ++ [.step r]) = [] := by
      rw [toldEvents_append, toldEvents_announced]
      rfl
    obtain ⟨ok, applied, count⟩ := due.applied told (by simp)
    rw [← List.append_assoc] at applied
    refine .inr ⟨t, ok, applied, .inr ⟨room, rfl, ?_⟩⟩
    rw [List.countP_append, List.countP_append, count, countP_announced]
    rfl

theorem Steps.controller {r : Except Panic Answer} (h : Steps s xs r s') :
    s'.controller = s.controller.applyAll (s.applied (some .step) xs) := by
  rcases h.applied with ⟨q, broken⟩ | ⟨t, due, applied, ⟨rfl, -⟩ | ⟨-, rfl, -⟩⟩
  · cases broken with
    | broken due => rw [applied_nil (some .step) nofun]; rfl
    | cut due single q =>
      rw [applied_discrete single, toldEvents_append, toldEvents_forwarded]
      rfl
  · rw [applied, due_eq due]
    rfl
  · rw [applied]
    dsimp only
    rw [due_eq due]
    rfl

/-- **The controller is what the events applied make of it.** -/
theorem Performs.controller {r : Except Panic Answer} (h : Performs s op xs r s') :
    s'.controller = s.controller.applyAll (s.applied (some op) xs) := by
  by_cases quiet : op.isQuiet = true
  · rw [(h.applied_of_quiet quiet).1, (h.rests quiet).controller]
    rfl
  · cases h with
    | dropped e dead => rw [applied_nil (some (.apply e)) fun _ _ => dead]; rfl
    | applied live h =>
      obtain ⟨told, controller⟩ := h.controller live
      rw [told, controller]
    | stepIgnored => rw [applied_nil (some .step) nofun]; rfl
    | stepped _ h => exact h.controller
    | recordingStarted => rw [applied_nil (some .startRecording) nofun]; rfl
    | recordingStopped => rw [applied_nil (some .stopRecording) nofun]; rfl
    | played log =>
      rw [applied_nil (some (.play log)) nofun]
      split_ifs <;> rfl
    | _ => exact absurd rfl quiet

end Session

namespace Rig

variable {σ : Type} (core : Core σ)

/-- The events that a run applies to the controller, the first one first. -/
def applied : List (RigOp σ) → Rig σ → List ButtonEvent
  | [], _ => []
  | op :: ops, r =>
    r.machine.session.applied op.op? (r.calls core [op]) ++ applied ops ((op.act core).after r)

theorem Performs.controller {op : RigOp σ} {s s' : Session} {xs : List Exchange}
    (h : Performs s op xs s') : s'.controller = s.controller.applyAll (s.applied op.op? xs) := by
  cases h with
  | asked h => exact h.controller
  | ticked clock h => exact h.controller
  | waited => rw [RigOp.op?, Session.applied_nil (some .step) nofun]; rfl
  | refreshed => rw [RigOp.op?, Session.applied_nil none nofun]; rfl
  | stopped => rw [RigOp.op?, Session.applied_nil none nofun]; rfl

/-- **The controller is what the events of a run make of it.** -/
theorem run_controller (ops : List (RigOp σ)) (r : Rig σ) :
    (r.run core ops).machine.session.controller =
      r.machine.session.controller.applyAll (applied core ops r) := by
  induction ops generalizing r with
  | nil => rfl
  | cons op ops ih =>
    rw [run_cons, ih, (op.performs core r).controller, applied, ControllerState.applyAll_append]

end Rig

/-! ## Logs that are played to their end -/

namespace Session

/-- The entries `es` of a log are safe: nothing that happens before they are played makes the session lose
them. The tick of the next step is `k`. -/
structure Safe (s : Session) (es : List InputEntry) (k : Nat) : Prop where
  plays : s.Plays es k
  sorted : es.Pairwise fun x y => x.tick ≤ y.tick
  future : ∀ e ∈ es, k ≤ e.tick.toNat
  whole : s.delivery = .packed ∨ es = []

/-- What became of the entries `es` while some events were applied: those in front were applied before
any live event, and the rest is left. -/
def Advances (es : List InputEntry) (events : List ButtonEvent) (rest : List InputEntry) : Prop :=
  ∃ done live, es = done ++ rest ∧ events = done.map (·.event) ++ live ∧ (rest ≠ [] → live = [])

theorem Advances.none (es : List InputEntry) : Advances es [] es := ⟨[], [], rfl, rfl, fun _ => rfl⟩

theorem Advances.trans {es fs gs : List InputEntry} {xs ys : List ButtonEvent} (h : Advances es xs fs)
    (h' : Advances fs ys gs) : Advances es (xs ++ ys) gs := by
  obtain ⟨done, live, rfl, rfl, alone⟩ := h
  obtain ⟨done', live', rfl, rfl, alone'⟩ := h'
  by_cases none : done' ++ gs = []
  · obtain ⟨rfl, rfl⟩ := List.append_eq_nil_iff.mp none
    exact ⟨done, live ++ live', by simp, by simp, fun h => absurd rfl h⟩
  · rw [alone none]
    exact ⟨done ++ done', live', by simp, by simp, alone'⟩

namespace Safe

variable {s s' t : Session} {es : List InputEntry} {k : Nat} {xs : List Exchange}

theorem of_eq (h : s.Safe es k) (playback : s'.playback = s.playback) (steps : s'.steps = s.steps)
    (delivery : s'.delivery = s.delivery) : s'.Safe es k :=
  ⟨h.plays.of_eq playback steps, h.sorted, h.future, by rw [delivery]; exact h.whole⟩

theorem due (h : s.Safe es k) : ∃ done rest t, es = done ++ rest ∧ s.due = .ok (done.map (·.event), t) ∧
    t.Safe rest k ∧ ∀ e ∈ rest, k < e.tick.toNat := by
  obtain ⟨done, rest, t, rfl, due, plays, -, later⟩ := h.plays.due_split h.sorted
  refine ⟨done, rest, t, rfl, due, ⟨plays, (List.pairwise_append.mp h.sorted).2.1, ?_, ?_⟩, later⟩
  · exact fun e he => Nat.le_of_lt (later e he)
  · rw [due_eq due]
    exact h.whole.imp_right fun none => (List.append_eq_nil_iff.mp none).2

theorem not_cut (h : s.Safe es k) {q : Panic} : ¬ PlaysDue s xs (.error q) s' := by
  obtain ⟨done, rest, t, split, due, -, -⟩ := h.due
  intro cut
  cases cut with
  | broken broken => cases broken.symm.trans due
  | cut cut single q =>
    rcases h.whole with packed | rfl
    · rw [packed] at single
      cases single
    · obtain ⟨rfl, rfl⟩ := List.nil_eq_append_iff.mp split
      have := congrArg Prod.fst (Except.ok.inj (cut.symm.trans due))
      simp at this

theorem step {r : Except Panic Answer} (h : s.Safe es k) (hs : Steps s xs r s') :
    ∃ rest, Advances es (s.applied (some .step) xs) rest ∧ s'.Safe rest (k + xs.countP Exchange.isStep) := by
  obtain ⟨done, rest, t, split, due, safe, later⟩ := h.due
  rcases hs.applied with ⟨q, cut⟩ | ⟨t', due', applied, now⟩
  · exact absurd cut h.not_cut
  · rw [due] at due'
    obtain ⟨events, rfl⟩ := Prod.mk.inj (Except.ok.inj due')
    refine ⟨rest, ⟨done, [], split, by rw [applied, ← events, List.append_nil], fun _ => rfl⟩, ?_⟩
    rcases now with ⟨rfl, count⟩ | ⟨room, rfl, count⟩
    · rw [count]
      exact safe
    · rw [count]
      exact ⟨safe.plays.step room, safe.sorted, later, safe.whole⟩

end Safe

/-- **Safe entries stay safe until they are played**, whatever the session does and whatever faults it
meets. -/
theorem Performs.safe {s s' : Session} {es : List InputEntry} {k : Nat} {xs : List Exchange} {op : Op}
    {r : Except Panic Answer} (hs : Performs s op xs r s') (h : s.Safe es k) (keeps : ∀ log, op ≠ .play log) :
    ∃ rest, Advances es (s.applied (some op) xs) rest ∧
      s'.Safe rest (k + xs.countP Exchange.isStep) := by
  by_cases quiet : op.isQuiet = true
  · have rests := hs.rests quiet
    obtain ⟨nothing, count⟩ := hs.applied_of_quiet quiet
    rw [nothing, count]
    exact ⟨es, .none es, h.of_eq rests.playback rests.steps rests.delivery⟩
  · cases hs with
    | dropped e dead =>
      rw [applied_nil (some (.apply e)) fun _ _ => dead]
      exact ⟨es, .none es, h⟩
    | applied live hs =>
      -- the session takes live input, so nothing is left to be played
      have played : s.isPlaying = false := by simpa using (Bool.and_eq_true_iff.mp live).2
      have none : es = [] := by
        by_contra some
        rw [h.plays.isPlaying_iff.mpr some] at played
        cases played
      obtain ⟨playback, steps, delivery, count⟩ := hs.frame
      rw [none] at h
      rw [none, count]
      exact ⟨[], ⟨[], _, rfl, rfl, fun h => absurd rfl h⟩, h.of_eq playback steps delivery⟩
    | stepIgnored =>
      rw [applied_nil (some .step) nofun]
      exact ⟨es, .none es, h⟩
    | stepped _ hs => exact h.step hs
    | recordingStarted =>
      rw [applied_nil (some .startRecording) nofun]
      exact ⟨es, .none es, h.of_eq rfl rfl rfl⟩
    | recordingStopped =>
      rw [applied_nil (some .stopRecording) nofun]
      exact ⟨es, .none es, h.of_eq rfl rfl rfl⟩
    | played log => exact absurd rfl (keeps log)
    | _ => exact absurd rfl quiet

end Session

namespace Rig

variable {σ : Type} (core : Core σ)

theorem Performs.safe {op : RigOp σ} {s s' : Session} {es : List InputEntry} {k : Nat}
    {xs : List Exchange} (hs : Performs s op xs s') (h : s.Safe es k) (keeps : op.isPlay = false) :
    ∃ rest, Session.Advances es (s.applied op.op? xs) rest ∧
      s'.Safe rest (k + xs.countP Exchange.isStep) := by
  cases hs with
  | asked hs => exact hs.safe h (by rintro log rfl; cases keeps)
  | ticked clock hs => exact hs.safe h nofun
  | waited =>
    rw [RigOp.op?, Session.applied_nil (some .step) nofun]
    exact ⟨es, .none es, h⟩
  | refreshed =>
    rw [RigOp.op?, Session.applied_nil none nofun]
    exact ⟨es, .none es, h⟩
  | stopped =>
    rw [RigOp.op?, Session.applied_nil none nofun]
    exact ⟨es, .none es, h⟩

theorem Performs.steps {clock : Clock σ} {s s' : Session} {xs : List Exchange}
    (h : Performs s (.tick clock) xs s') (hx : xs ≠ []) : ∃ r, s.Steps xs r s' := by
  cases h with
  | waited => exact absurd rfl hx
  | ticked _ h =>
    cases h with
    | stepIgnored => exact absurd rfl hx
    | stepped _ h => exact ⟨_, h⟩

theorem run_safe {es : List InputEntry} {k : Nat} (ops : List (RigOp σ)) (r : Rig σ)
    (h : r.machine.session.Safe es k) (keeps : ∀ op ∈ ops, op.isPlay = false) :
    ∃ rest, Session.Advances es (applied core ops r) rest ∧
      (r.run core ops).machine.session.Safe rest (k + (r.calls core ops).countP Exchange.isStep) := by
  induction ops generalizing r es k with
  | nil => exact ⟨es, .none es, h⟩
  | cons op ops ih =>
    obtain ⟨mid, now, safe⟩ := (op.performs core r).safe h (keeps op List.mem_cons_self)
    obtain ⟨rest, later, safe⟩ := ih _ safe fun op hop => keeps op (List.mem_cons_of_mem _ hop)
    refine ⟨rest, now.trans later, ?_⟩
    rw [calls_cons, List.countP_append, ← Nat.add_assoc]
    exact safe

end Rig

/-! ## A fault in the middle of a log -/

/-- **What is left of a log is still played.** Whatever a host does next, short of playing another log: the
entries are applied in order, each once, and before any live event; the session plays as long as one is
left; and after as many steps as there are ticks before it, an entry has been applied. The next step is
the tick `k`. -/
def StillComing {σ : Type} (core : Core σ) (r : Rig σ) (es : List InputEntry) (k : Nat) : Prop :=
  ∀ ops : List (RigOp σ), (∀ op ∈ ops, op.isPlay = false) →
    ∃ rest, Session.Advances es (r.applied core ops) rest ∧
      ((r.run core ops).machine.session.isPlaying = true ↔ rest ≠ []) ∧
      ∀ e ∈ rest, k + (r.calls core ops).countP Exchange.isStep ≤ e.tick.toNat

theorem StillComing.of_safe {σ : Type} {core : Core σ} {r : Rig σ} {es : List InputEntry} {k : Nat}
    (h : r.machine.session.Safe es k) : StillComing core r es k := by
  intro ops keeps
  obtain ⟨rest, advances, safe⟩ := Rig.run_safe core ops r h keeps
  exact ⟨rest, advances, safe.plays.isPlaying_iff, safe.future⟩

theorem StillComing.isPlaying_iff {σ : Type} {core : Core σ} {r : Rig σ} {es : List InputEntry} {k : Nat}
    (h : StillComing core r es k) : r.machine.session.isPlaying = true ↔ es ≠ [] := by
  obtain ⟨rest, ⟨done, live, split, events, -⟩, plays, -⟩ := h [] nofun
  obtain ⟨none, -⟩ := List.append_eq_nil_iff.mp events.symm
  rw [split, List.map_eq_nil_iff.mp none]
  exact plays

namespace Session

theorem keysReturn_told {d : Delivery} {es : List ButtonEvent} {s : Session} :
    KeysReturn (forwarded d es ++ s.announced) := by
  intro input q
  unfold announced
  cases d <;> cases s.delivery <;> simp [forwarded]

/-- **A panic as the core is told about input.** In packed delivery the playback is past what was due. In
discrete delivery there is no playback any more. -/
theorem Steps.panicked {s s' : Session} {p : Playback} {xs : List Exchange} {r : Except Panic Answer}
    {input : KeyInput} {q : Panic} (h : Steps s xs r s') (playing : s.playback = some p)
    (ordered : p.log.Ordered) (panicked : .updateKey input (.error q) ∈ xs) :
    (s.delivery = .packed ∧ ∃ k, p.origin.toNat + k = s.steps.toNat ∧
        s.applied (some .step) xs = (p.rest.takeWhile fun e => e.tick.toNat ≤ k).map (·.event) ∧
        s'.Safe (p.rest.dropWhile fun e => e.tick.toNat ≤ k) k) ∨
      (s.delivery = .discrete ∧ s.applied (some .step) xs <+: p.rest.map (·.event) ∧
        s'.playback = none) := by
  cases h with
  | cut due =>
    cases due with
    | broken due => cases panicked
    | cut due single q' =>
      rename_i front back e t
      refine .inr ⟨single, ?_, rfl⟩
      obtain ⟨t', due', -⟩ := due_of_tick playing (inside_of_due playing due) (tick_of_due playing due)
      have events := congrArg Prod.fst (Except.ok.inj (due.symm.trans due'))
      dsimp only at events
      have told : front ++ [e] <+: front ++ e :: back := ⟨back, by simp⟩
      rw [events] at told
      rw [applied_discrete single, toldEvents_append, toldEvents_forwarded]
      exact told.trans ((List.takeWhile_prefix _).map _)
  | unannounced due packed q' =>
    cases due with
    | delivered due =>
      have tick := tick_of_due playing due
      obtain ⟨t, due', plays⟩ := due_of_tick playing (inside_of_due playing due) tick
      obtain ⟨rfl, rfl⟩ := Prod.mk.inj (Except.ok.inj (due.symm.trans due'))
      have sorted : p.rest.Pairwise fun x y => x.tick ≤ y.tick := ordered.sublist (List.drop_sublist _ _)
      have before : s.delivery = .packed := by
        rw [due_eq due] at packed
        exact packed
      refine .inl ⟨before, _, tick, ?_, plays, ?_, ?_, .inl packed⟩
      · rw [applied_step before (by simp), dueEvents_eq due]
      · exact sorted.sublist (List.dropWhile_sublist _)
      · rw [(InputLog.takeWhile_of_sorted sorted _).2]
        intro e he
        exact Nat.le_of_lt (by simpa using (List.mem_filter.mp he).2)
  | uncounted due full =>
    cases due with
    | delivered due => exact absurd panicked (keysReturn_told input q)
  | taken due room r =>
    cases due with
    | delivered due =>
      rcases List.mem_append.mp panicked with told | step
      · exact absurd told (keysReturn_told input q)
      · simp at step

end Session

/-- **What a fault leaves of a log.** While a log is played the core panics as it is told about input. The
events applied until then are the first ones left of the log. The others are still coming in packed
delivery, and otherwise only if there are none. -/
theorem stillComing_iff {σ : Type} (core : Core σ) (clock : Clock σ) (r : Rig σ) {p : Playback}
    {input : KeyInput} {q : Panic} (playing : r.machine.session.playback = some p)
    (ordered : p.log.Ordered)
    (panicked : .updateKey input (.error q) ∈ r.calls core [.tick clock]) :
    r.applied core [.tick clock] <+: p.rest.map (·.event) ∧
      (StillComing core (r.run core [.tick clock])
          (p.rest.drop (r.applied core [.tick clock]).length)
          (r.machine.session.steps.toNat - p.origin.toNat) ↔
        r.machine.session.delivery = .packed ∨
          p.rest.drop (r.applied core [.tick clock]).length = []) := by
  have applied : r.applied core [.tick clock] =
      r.machine.session.applied (some .step) (r.calls core [.tick clock]) := List.append_nil _
  obtain ⟨o, steps⟩ := ((RigOp.tick clock).performs core r).steps (List.ne_nil_of_mem panicked)
  change Session.Steps _ _ _ (r.run core [.tick clock]).machine.session at steps
  rw [applied]
  rcases steps.panicked playing ordered panicked with
    ⟨packed, k, tick, told, safe⟩ | ⟨discrete, told, lost⟩
  · rw [told, List.length_map, Session.drop_length_takeWhile, ← tick, Nat.add_sub_cancel_left]
    exact ⟨(List.takeWhile_prefix _).map _, iff_of_true (.of_safe safe) (.inl packed)⟩
  · refine ⟨told, fun coming => .inr ?_, ?_⟩
    · by_contra left
      have plays := coming.isPlaying_iff.mpr left
      rw [Session.isPlaying, lost] at plays
      cases plays
    · rintro (packed | none)
      · exact absurd (discrete.symm.trans packed) (by decide)
      · rw [none]
        exact .of_safe ⟨(Session.plays_of_none lost).mpr rfl, .nil, nofun, .inr rfl⟩

/-- A clock that stands still. -/
def stillClock : Clock (List (Option Fault)) := ⟨return .zero, fun _ => return ()⟩

/-- A session that plays two entries, on a core that panics when it is told the first one. -/
def faultyReplay (d : Delivery) : Rig (List (Option Fault)) :=
  Rig.run Core.faulty
    [.session (.loadRom .empty), .session (.play ⟨[⟨0, .press .a⟩, ⟨1, .press .b⟩]⟩)]
    ⟨.fresh Core.faulty d [none, none, some (.panic .other)], .fresh default⟩

theorem stillComing_iff_faultyReplay :
    StillComing Core.faulty ((faultyReplay .packed).run Core.faulty [.tick stillClock])
      [⟨1, .press .b⟩] 0 := by
  have calls : (faultyReplay .packed).calls Core.faulty [.tick stillClock] =
      [.updateKey (.state ⟨1⟩) (.error .other)] := rfl
  have applied : (faultyReplay .packed).applied Core.faulty [.tick stillClock] = [.press .a] := rfl
  have coming := (stillComing_iff Core.faulty stillClock (faultyReplay .packed) rfl (by decide)
    (by rw [calls]; exact List.mem_singleton_self _)).2.mpr (.inl rfl)
  rw [applied] at coming
  exact coming

/-- In discrete delivery the second entry is lost with the first one's fault. -/
theorem not_stillComing_faultyReplay :
    (faultyReplay .discrete).calls Core.faulty [.tick stillClock] =
        [.updateKey (.event (.press .a)) (.error .other)] ∧
      (faultyReplay .discrete).applied Core.faulty [.tick stillClock] = [.press .a] ∧
      ¬ StillComing Core.faulty ((faultyReplay .discrete).run Core.faulty [.tick stillClock])
        [⟨1, .press .b⟩] 0 := by
  refine ⟨rfl, rfl, fun coming => ?_⟩
  have silent : ((faultyReplay .discrete).run Core.faulty
      [.tick stillClock]).machine.session.isPlaying = false := rfl
  exact absurd (silent.symm.trans (coming.isPlaying_iff.mpr (by simp))) (by decide)

end EmulatorHost
