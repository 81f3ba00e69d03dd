import EmulatorHost.Proofs.Session.Calls

/-!
# What an operation can do

* `Session.Performs`: the calls an operation can make on the core, what it can answer, and the session it
  leaves, each case by name. The core is free to answer, to fail or to panic in every call.
* **`Op.performs`**: an operation on a machine does one of these.
* `Session.Yields`: an action followed call by call; its rules are what the proof of `Op.performs` uses.
-/

namespace EmulatorHost

namespace Session

/-! ## Sessions -/

/-- The session with one more event. -/
def emit (e : SessionEvent) (s : Session) : Session := { s with events := s.events ++ [e] }

/-- The session in a phase. Staying where it is leaves no trace. -/
def enter (target : Phase) (s : Session) : Session :=
  if s.phase = target then s
  else { s with phase := target, events := s.events ++ [.phaseChanged s.phase target] }

/-- The session after some input. -/
def hold (es : List ButtonEvent) (s : Session) : Session :=
  { s with controller := s.controller.applyAll es }

/-- Whether the session takes live input. -/
def isLive (s : Session) : Bool := s.isRunning && !s.isPlaying

/-- The input that is due before the next step, and the session once it has all been applied. -/
def due (s : Session) : Except Panic (List ButtonEvent × Session) :=
  match s.playback with
  | none => .ok ([], s)
  | some p => (p.due s.steps).map fun (es, p') =>
    (es, { s.hold es with playback := if p'.isFinished then none else some p' })

/-- The session with an event in its recording, if there is one. -/
def recorded (e : ButtonEvent) (s : Session) : Except Panic Session :=
  match s.recorder with
  | none => .ok s
  | some r => (r.record s.steps e).map fun r' => { s with recorder := some r' }

section Enter

variable (p : Phase) (s : Session)

@[simp] theorem enter_phase : (s.enter p).phase = p := by
  unfold enter
  split_ifs with h
  · exact h
  · rfl

@[simp] theorem enter_controller : (s.enter p).controller = s.controller := by
  unfold enter; split_ifs <;> rfl

@[simp] theorem enter_delivery : (s.enter p).delivery = s.delivery := by
  unfold enter; split_ifs <;> rfl

@[simp] theorem enter_steps : (s.enter p).steps = s.steps := by
  unfold enter; split_ifs <;> rfl

@[simp] theorem enter_recorder : (s.enter p).recorder = s.recorder := by
  unfold enter; split_ifs <;> rfl

@[simp] theorem enter_playback : (s.enter p).playback = s.playback := by
  unfold enter; split_ifs <;> rfl

@[simp] theorem enter_base : (s.enter p).base = s.base := by
  unfold enter; split_ifs <;> rfl

end Enter

theorem due_eq {s t : Session} {es : List ButtonEvent} (h : s.due = .ok (es, t)) :
    t = { s.hold es with playback := t.playback } := by
  unfold due at h
  cases hp : s.playback with
  | none =>
    rw [hp] at h
    cases h
    rfl
  | some p =>
    rw [hp] at h
    dsimp only at h
    cases hd : p.due s.steps with
    | error q => rw [hd] at h; cases h
    | ok d => rw [hd] at h; cases h; rfl

theorem steps_toNat {s : Session} (room : s.steps.toNat + 1 < UInt64.size) :
    (s.steps + 1).toNat = s.steps.toNat + 1 := by
  rw [UInt64.toNat_add]
  exact Nat.mod_eq_of_lt room

theorem recorded_eq {s t : Session} {e : ButtonEvent} (h : s.recorded e = .ok t) :
    t = { s with recorder := t.recorder } := by
  unfold recorded at h
  cases hr : s.recorder with
  | none =>
    rw [hr] at h
    cases h
    rfl
  | some r =>
    rw [hr] at h
    dsimp only at h
    cases hd : r.record s.steps e with
    | error q => rw [hd] at h; cases h
    | ok r' => rw [hd] at h; cases h; rfl

/-! ## What can happen -/

/-- What the core is told of events as they are applied. -/
def forwarded : Delivery → List ButtonEvent → List Exchange
  | .packed, _ => []
  | .discrete, es => es.map fun e => .updateKey (.event e) (.ok ())

@[simp] theorem forwarded_nil (d : Delivery) : forwarded d [] = [] := by cases d <;> rfl

@[simp] theorem forwarded_packed (es : List ButtonEvent) : forwarded .packed es = [] := rfl

@[simp] theorem forwarded_cons (e : ButtonEvent) (es : List ButtonEvent) :
    forwarded .discrete (e :: es) = .updateKey (.event e) (.ok ()) :: forwarded .discrete es := rfl

/-- What the core is told before a step. -/
def announced (s : Session) : List Exchange :=
  match s.delivery with
  | .packed => [.updateKey (.state s.controller) (.ok ())]
  | .discrete => []

theorem countP_announced (s : Session) : s.announced.countP Exchange.isStep = 0 := by
  unfold announced
  cases s.delivery <;> rfl

theorem countP_forwarded (d : Delivery) (es : List ButtonEvent) :
    (forwarded d es).countP Exchange.isStep = 0 := by
  rw [List.countP_eq_zero]
  cases d <;> simp [forwarded, Exchange.isStep]

/-- How a reset of the core can end. -/
inductive Resets (s : Session) : List Exchange → Except Panic Unit → Session → Prop
  | returned : Resets s [.reset (.ok ())] (.ok ()) ((s.enter .paused).enter .running)
  | panicked (p : Panic) : Resets s [.reset (.error p)] (.error p) (s.enter .paused)

/-- How the delivery of the input that is due can end. -/
inductive PlaysDue (s : Session) : List Exchange → Except Panic Unit → Session → Prop
  | delivered {es : List ButtonEvent} {t : Session} (h : s.due = .ok (es, t)) :
    PlaysDue s (forwarded s.delivery es) (.ok ()) t
  | broken {q : Panic} (h : s.due = .error q) : PlaysDue s [] (.error q) { s with playback := none }
  | cut {front back : List ButtonEvent} {e : ButtonEvent} {t : Session}
      (h : s.due = .ok (front ++ e :: back, t)) (single : s.delivery = .discrete) (q : Panic) :
    PlaysDue s (forwarded .discrete front ++ [.updateKey (.event e) (.error q)]) (.error q)
      { s.hold (front ++ [e]) with playback := none }

/-- How a live event can end. -/
inductive Applies (s : Session) (e : ButtonEvent) : List Exchange → Except Panic Answer → Session → Prop
  | recorded {t : Session} (h : (s.hold [e]).recorded e = .ok t) :
    Applies s e (forwarded s.delivery [e]) (.ok .done) t
  | unrecorded {q : Panic} (h : (s.hold [e]).recorded e = .error q) :
    Applies s e (forwarded s.delivery [e]) (.error q) (s.hold [e])
  | cut (single : s.delivery = .discrete) (q : Panic) :
    Applies s e [.updateKey (.event e) (.error q)] (.error q) (s.hold [e])

/-- How a step that is attempted can end. -/
inductive Steps (s : Session) : List Exchange → Except Panic Answer → Session → Prop
  | cut {xs : List Exchange} {q : Panic} {t : Session} (h : PlaysDue s xs (.error q) t) :
    Steps s xs (.error q) t
  | unannounced {xs : List Exchange} {t : Session} (h : PlaysDue s xs (.ok ()) t)
      (packed : t.delivery = .packed) (q : Panic) :
    Steps s (xs ++ [.updateKey (.state t.controller) (.error q)]) (.error q) t
  | uncounted {xs : List Exchange} {t : Session} (h : PlaysDue s xs (.ok ()) t)
      (full : ¬ t.steps.toNat + 1 < UInt64.size) :
    Steps s (xs ++ t.announced) (.error (.text "attempt to add with overflow")) t
  | taken {xs : List Exchange} {t : Session} (h : PlaysDue s xs (.ok ()) t)
      (room : t.steps.toNat + 1 < UInt64.size) (r : Except Panic (Except Failure Unit)) :
    Steps s (xs ++ t.announced ++ [.step r]) (r.map fun o => .stepped (o.map fun _ => true))
      { t with steps := t.steps + 1 }

/-- What an operation can do: the calls it makes on the core, what it answers, and the session it leaves. -/
inductive Performs (s : Session) : Op → List Exchange → Except Panic Answer → Session → Prop
  | loadRefused (rom : ByteArray) :
    Performs s (.loadRom rom) [.load rom (.ok false)] (.ok (.loaded (.error ⟨rom.size⟩)))
      (s.emit (.loadFailed rom.size))
  | loadPanicked (rom : ByteArray) (p : Panic) :
    Performs s (.loadRom rom) [.load rom (.error p)] (.error p) s
  | loadAccepted {rom : ByteArray} {xs : List Exchange} {r : Except Panic Unit} {t : Session}
      (h : Resets ((s.emit (.romLoaded rom.size)).enter .romLoaded) xs r t) :
    Performs s (.loadRom rom) (.load rom (.ok true) :: xs) (r.map fun _ => .loaded (.ok ())) t
  | resetIgnored (h : s.isRunning = false) : Performs s .reset [] (.ok (.wasReset false)) s
  | resetReturned {xs : List Exchange} {t : Session} (run : s.isRunning = true)
      (h : Resets s xs (.ok ()) t) :
    Performs s .reset xs (.ok (.wasReset true)) (t.emit .reset)
  | resetPanicked {xs : List Exchange} {p : Panic} {t : Session} (run : s.isRunning = true)
      (h : Resets s xs (.error p) t) :
    Performs s .reset xs (.error p) t
  | dropped (e : ButtonEvent) (h : s.isLive = false) : Performs s (.apply e) [] (.ok .done) s
  | applied {e : ButtonEvent} {xs : List Exchange} {r : Except Panic Answer} {t : Session}
      (live : s.isLive = true) (h : Applies s e xs r t) :
    Performs s (.apply e) xs r t
  | stepIgnored (h : s.isRunning = false) : Performs s .step [] (.ok (.stepped (.ok false))) s
  | stepped {xs : List Exchange} {r : Except Panic Answer} {t : Session} (run : s.isRunning = true)
      (h : Steps s xs r t) :
    Performs s .step xs r t
  | shown (out : ByteArray) (r : Except Panic Answer) : Performs s (.display out) [] r s
  | drained : Performs s .drainEvents [] (.ok (.drained s.events)) { s with events := [] }
  | recordingStarted :
    Performs s .startRecording [] (.ok .done) { s with recorder := some (.start s.steps) }
  | recordingStopped :
    Performs s .stopRecording [] (.ok (.recorded (s.recorder.map (·.log)))) { s with recorder := none }
  | played (log : InputLog) :
    Performs s (.play log) [] (.ok .done)
      (if log.isEmpty then s else { s with playback := some (.start log s.steps) })

/-! ## What operations leave alone -/

section Rests

/-- From one session to another only the phase and the events have changed. -/
structure Rests (s t : Session) : Prop where
  controller : t.controller = s.controller
  delivery : t.delivery = s.delivery
  steps : t.steps = s.steps
  recorder : t.recorder = s.recorder
  playback : t.playback = s.playback

variable {s s' t u : Session} {xs : List Exchange}

namespace Rests

theorem refl (s : Session) : Rests s s := ⟨rfl, rfl, rfl, rfl, rfl⟩

theorem trans (h : Rests s t) (h' : Rests t u) : Rests s u where
  controller := h'.controller.trans h.controller
  delivery := h'.delivery.trans h.delivery
  steps := h'.steps.trans h.steps
  recorder := h'.recorder.trans h.recorder
  playback := h'.playback.trans h.playback

theorem emit (s : Session) (e : SessionEvent) : Rests s (s.emit e) := ⟨rfl, rfl, rfl, rfl, rfl⟩

theorem enter (s : Session) (p : Phase) : Rests s (s.enter p) :=
  ⟨enter_controller p s, enter_delivery p s, enter_steps p s, enter_recorder p s, enter_playback p s⟩

end Rests

theorem Resets.rests {r : Except Panic Unit} (h : Resets s xs r s') : Rests s s' := by
  cases h with
  | returned => exact (Rests.enter s _).trans (.enter _ _)
  | panicked p => exact .enter s _

/-- Loads, resets and looks at the session leave all but phase and events as it was. -/
theorem Performs.rests {op : Op} {r : Except Panic Answer} (h : Performs s op xs r s')
    (quiet : op.isQuiet = true) : Rests s s' := by
  cases h with
  | loadRefused rom => exact .emit s _
  | loadPanicked rom p => exact .refl s
  | loadAccepted h => exact ((Rests.emit s _).trans (.enter _ _)).trans h.rests
  | resetIgnored idle => exact .refl s
  | resetReturned _ h => exact h.rests.trans (.emit _ _)
  | resetPanicked _ h => exact h.rests
  | shown out r => exact .refl s
  | drained => exact ⟨rfl, rfl, rfl, rfl, rfl⟩
  | dropped => cases quiet
  | applied => cases quiet
  | stepIgnored => cases quiet
  | stepped => cases quiet
  | recordingStarted => cases quiet
  | recordingStopped => cases quiet
  | played => cases quiet

theorem Performs.isInput_eq_false {op : Op} {r : Except Panic Answer} (h : Performs s op xs r s')
    (quiet : op.isQuiet = true) : ∀ x ∈ xs, x.isInput = false := by
  cases h with
  | loadRefused rom => simp [Exchange.isInput]
  | loadPanicked rom p => simp [Exchange.isInput]
  | loadAccepted h => cases h <;> simp [Exchange.isInput]
  | resetIgnored idle => simp
  | resetReturned _ h => cases h; simp [Exchange.isInput]
  | resetPanicked _ h => cases h; simp [Exchange.isInput]
  | shown out r => simp
  | drained => simp
  | dropped => cases quiet
  | applied => cases quiet
  | stepIgnored => cases quiet
  | stepped => cases quiet
  | recordingStarted => cases quiet
  | recordingStopped => cases quiet
  | played => cases quiet

theorem Applies.frame {e : ButtonEvent} {r : Except Panic Answer} (h : Applies s e xs r s') :
    s'.playback = s.playback ∧ s'.steps = s.steps ∧ s'.delivery = s.delivery ∧
      xs.countP Exchange.isStep = 0 := by
  cases h with
  | recorded kept =>
    rw [recorded_eq kept]
    exact ⟨rfl, rfl, rfl, countP_forwarded _ _⟩
  | unrecorded => exact ⟨rfl, rfl, rfl, countP_forwarded _ _⟩
  | cut => exact ⟨rfl, rfl, rfl, rfl⟩

theorem PlaysDue.frame {r : Except Panic Unit} (h : PlaysDue s xs r t) :
    t.steps = s.steps ∧ t.recorder = s.recorder := by
  cases h with
  | delivered due =>
    rw [due_eq due]
    exact ⟨rfl, rfl⟩
  | broken due => exact ⟨rfl, rfl⟩
  | cut due single q => exact ⟨rfl, rfl⟩

theorem PlaysDue.countP_isStep {r : Except Panic Unit} (h : PlaysDue s xs r t) :
    xs.countP Exchange.isStep = 0 := by
  cases h with
  | delivered due => exact countP_forwarded _ _
  | broken due => rfl
  | cut due single q =>
    rw [List.countP_append, countP_forwarded]
    rfl

end Rests

section Base

variable {s t : Session} {xs : List Exchange}

theorem Resets.base {r : Except Panic Unit} (h : Resets s xs r t) : t.base = s.base := by
  cases h <;> simp

theorem PlaysDue.base {r : Except Panic Unit} (h : PlaysDue s xs r t) : t.base = s.base := by
  cases h with
  | delivered due =>
    rw [due_eq due]
    rfl
  | broken due => rfl
  | cut due single q => rfl

theorem Applies.base {e : ButtonEvent} {r : Except Panic Answer} (h : Applies s e xs r t) :
    t.base = s.base := by
  cases h with
  | recorded kept =>
    rw [recorded_eq kept]
    rfl
  | unrecorded => rfl
  | cut single q => rfl

theorem Steps.base {r : Except Panic Answer} (h : Steps s xs r t) : t.base = s.base := by
  cases h with
  | cut due => exact due.base
  | unannounced due packed q => exact due.base
  | uncounted due full => exact due.base
  | taken due room o => exact due.base

/-- **The picture stays where it is in the memory.** -/
theorem Performs.base {op : Op} {r : Except Panic Answer} (h : Performs s op xs r t) : t.base = s.base := by
  cases h with
  | loadAccepted h => exact h.base.trans (enter_base _ _)
  | resetReturned run h => exact h.base
  | resetPanicked run h => exact h.base
  | applied live h => exact h.base
  | stepped run h => exact h.base
  | played log => split_ifs <;> rfl
  | _ => rfl

end Base

section Delivery

variable {s t : Session} {xs : List Exchange}

theorem PlaysDue.delivery {r : Except Panic Unit} (h : PlaysDue s xs r t) : t.delivery = s.delivery := by
  cases h with
  | delivered due =>
    rw [due_eq due]
    rfl
  | broken due => rfl
  | cut due single q => rfl

theorem Steps.delivery {r : Except Panic Answer} (h : Steps s xs r t) : t.delivery = s.delivery := by
  cases h with
  | cut due => exact due.delivery
  | unannounced due packed q => exact due.delivery
  | uncounted due full => exact due.delivery
  | taken due room o => exact due.delivery

/-- **The form in which the core is told about input stays the same.** -/
theorem Performs.delivery {op : Op} {r : Except Panic Answer} (h : Performs s op xs r t) :
    t.delivery = s.delivery := by
  cases h with
  | loadAccepted h => exact h.rests.delivery.trans (enter_delivery _ _)
  | resetReturned run h => exact h.rests.delivery
  | resetPanicked run h => exact h.rests.delivery
  | applied live h => exact h.frame.2.2.1
  | stepped run h => exact h.delivery
  | played log => split_ifs <;> rfl
  | _ => rfl

end Delivery

/-! ## Following an action call by call -/

variable {σ α β : Type}

/-- From the traced machine `m` the action adds calls, answers and leaves a session as `P` says. -/
def Yields (x : Act (Machine (Traced σ)) α) (P : List Exchange → Except Panic α → Session → Prop)
    (m : Machine (Traced σ)) : Prop :=
  ∃ xs, (x.after m).world.2 = m.world.2 ++ xs ∧ P xs (x.answer m) (x.after m).session

namespace Yields

variable {x : Act (Machine (Traced σ)) α} {k : α → Act (Machine (Traced σ)) β}
  {P : List Exchange → Except Panic α → Session → Prop}
  {Q : List Exchange → Except Panic β → Session → Prop} {m : Machine (Traced σ)}

/-- **One action after another.** -/
theorem andThen (hx : Yields x P m)
    (hk : ∀ xs a v, P xs (.ok a) v.session → Yields (k a) (fun ys r t => Q (xs ++ ys) r t) v)
    (he : ∀ xs p t, P xs (.error p) t → Q xs (.error p) t) : Yields (x >>= k) Q m := by
  obtain ⟨xs, hc, hp⟩ := hx
  cases h : x m with
  | ok a v =>
    rw [Act.after_of_ok h] at hc hp
    rw [Act.answer_of_ok h] at hp
    obtain ⟨ys, hd, hq⟩ := hk xs a v hp
    have step : (x >>= k) m = k a v := by rw [Act.bind_apply, h]
    refine ⟨xs ++ ys, ?_, ?_⟩
    · rw [Act.after, step, ← Act.after, hd, hc, List.append_assoc]
    · rw [Act.after, Act.answer, step, ← Act.after, ← Act.answer]
      exact hq
  | error p v =>
    rw [Act.after_of_error h] at hc hp
    rw [Act.answer_of_error h] at hp
    have stop : (x >>= k) m = .error p v := by rw [Act.bind_apply, h]
    refine ⟨xs, ?_, ?_⟩
    · rw [Act.after_of_error stop, hc]
    · rw [Act.after_of_error stop, Act.answer_of_error stop]
      exact he xs p _ hp

theorem of_pure {a : α} (h : P [] (.ok a) m.session) : Yields (pure a) P m :=
  ⟨[], (List.append_nil _).symm, h⟩

theorem of_throw {p : Panic} (h : P [] (.error p) m.session) :
    Yields (throw p : Act (Machine (Traced σ)) α) P m :=
  ⟨[], (List.append_nil _).symm, h⟩

theorem get_andThen {k : Machine (Traced σ) → Act (Machine (Traced σ)) β} (h : Yields (k m) Q m) :
    Yields (get >>= k) Q m := h

theorem of_modify {f : Machine (Traced σ) → Machine (Traced σ)}
    {P : List Exchange → Except Panic Unit → Session → Prop} (hw : (f m).world = m.world)
    (h : P [] (.ok ()) (f m).session) : Yields (modify f) P m :=
  ⟨[], by rw [Act.after_of_ok (Act.modify_apply f m), hw, List.append_nil], h⟩

theorem modify_andThen {f : Machine (Traced σ) → Machine (Traced σ)}
    {k : Unit → Act (Machine (Traced σ)) β} (hw : (f m).world = m.world) (h : Yields (k ()) Q (f m)) :
    Yields (modify f >>= k) Q m := by
  obtain ⟨xs, hc, hq⟩ := h
  rw [hw] at hc
  exact ⟨xs, hc, hq⟩

theorem of_call {x : Act σ α} {exchange : Except Panic α → Exchange}
    (h : ∀ r, P [exchange r] r m.session) :
    Yields (call (x.noting fun o calls => calls ++ [exchange o])) P m := by
  refine ⟨[exchange (x.answer m.world.1)], ?_, ?_⟩
  · rw [call, Act.after_within, Act.after_noting]
  · rw [call, Act.answer_within, Act.after_within, Act.answer_noting]
    exact h _

theorem call_andThen {x : Act σ α} {exchange : Except Panic α → Exchange}
    (hk : ∀ a w j, Yields (k a) (fun ys r t => Q (exchange (.ok a) :: ys) r t) ⟨m.session, w, j⟩)
    (he : ∀ p, Q [exchange (.error p)] (.error p) m.session) :
    Yields (call (x.noting fun o calls => calls ++ [exchange o]) >>= k) Q m := by
  have called : Yields (call (x.noting fun o calls => calls ++ [exchange o]))
      (fun xs r t => xs = [exchange r] ∧ t = m.session) m := of_call fun _ => ⟨rfl, rfl⟩
  refine called.andThen ?_ ?_
  · rintro xs a v ⟨rfl, hv⟩
    have := hk a v.world v.journal
    rw [← hv] at this
    exact this
  · rintro xs p t ⟨rfl, rfl⟩
    exact he p

theorem aside_andThen {x : Act σ α} (hk : ∀ a w j, Yields (k a) Q ⟨m.session, w, j⟩)
    (he : ∀ p, Q [] (.error p) m.session) : Yields (call x.aside >>= k) Q m := by
  have called : Yields (call x.aside) (fun xs _ t => xs = [] ∧ t = m.session) m := by
    refine ⟨[], ?_, rfl, ?_⟩
    · rw [call, Act.after_within, Act.after_aside, List.append_nil]
    · rw [call, Act.after_within]
  refine called.andThen ?_ ?_
  · rintro xs a v ⟨rfl, hv⟩
    have := hk a v.world v.journal
    rw [← hv] at this
    exact this
  · rintro xs p t ⟨rfl, rfl⟩
    exact he p

theorem ofExcept_andThen {e : Except Panic α} (hk : ∀ a, e = .ok a → Yields (k a) Q m)
    (he : ∀ p, e = .error p → Q [] (.error p) m.session) :
    Yields (Act.ofExcept e >>= k) Q m := by
  cases e with
  | ok a => exact hk a rfl
  | error p => exact of_throw (he p rfl)

theorem of_map {f : α → β} (h : Yields x (fun xs r t => Q xs (r.map f) t) m) :
    Yields (f <$> x) Q m := by
  obtain ⟨xs, hc, hq⟩ := h
  refine ⟨xs, ?_, ?_⟩
  · rw [Act.after_map, hc]
  · rw [Act.after_map, Act.answer_map]
    exact hq

theorem imp {R : List Exchange → Except Panic α → Session → Prop} (h : Yields x P m)
    (hi : ∀ xs r t, P xs r t → R xs r t) : Yields x R m := by
  obtain ⟨xs, hc, hp⟩ := h
  exact ⟨xs, hc, hi _ _ _ hp⟩

end Yields

/-! ## Every operation does one of these -/

section Operations

open Yields

variable (core : Core σ) (m : Machine (Traced σ))

theorem session_enter (p : Phase) (m : Machine σ) : (m.enter p).session = m.session.enter p := by
  unfold Machine.enter enter
  dsimp only
  split_ifs <;> rfl

theorem world_enter (p : Phase) (m : Machine σ) : (m.enter p).world = m.world := by
  unfold Machine.enter
  dsimp only
  split_ifs <;> rfl

theorem resetCore_yields : Yields (resetCore core.traced) (Resets m.session) m := by
  unfold resetCore
  refine modify_andThen (world_enter _ _) ?_
  refine call_andThen (fun _ w j => ?_) fun p => ?_
  · refine of_modify (world_enter _ _) ?_
    rw [session_enter, session_enter]
    exact .returned
  · rw [session_enter]
    exact .panicked p

theorem loadRom_performs (rom : ByteArray) : Yields (Op.act core.traced (.loadRom rom))
    (Performs m.session (.loadRom rom)) m := by
  refine of_map ?_
  unfold loadRom
  refine call_andThen (fun accepted w j => ?_) fun p => .loadPanicked rom p
  cases accepted with
  | true =>
    refine modify_andThen (world_enter _ _) ?_
    refine (resetCore_yields core _).andThen ?_ ?_
    · intro xs _ v h
      rw [session_enter] at h
      refine of_pure ?_
      rw [List.append_nil]
      exact .loadAccepted h
    · intro xs p t h
      rw [session_enter] at h
      exact .loadAccepted h
  | false => exact modify_andThen rfl (of_pure (.loadRefused rom))

theorem reset_performs : Yields (Op.act core.traced .reset) (Performs m.session .reset) m := by
  refine of_map ?_
  unfold reset
  refine get_andThen ?_
  split_ifs with run
  · refine modify_andThen rfl ?_
    refine (resetCore_yields core _).andThen ?_ ?_
    · intro xs _ v h
      refine modify_andThen rfl (of_pure ?_)
      rw [List.append_nil]
      exact .resetReturned run h
    · intro xs p t h
      exact .resetPanicked run h
  · exact of_pure (.resetIgnored (by simpa using run))

theorem deliver_yields (e : ButtonEvent) : Yields (deliver core.traced e)
    (fun xs r t => t = m.session.hold [e] ∧
      (r = .ok () ∧ xs = forwarded m.session.delivery [e] ∨
        m.session.delivery = .discrete ∧ ∃ q, r = .error q ∧ xs = [.updateKey (.event e) (.error q)])) m := by
  unfold deliver
  refine modify_andThen rfl (get_andThen ?_)
  change Yields (match m.session.delivery with
    | .packed => _
    | .discrete => _) _ _
  cases hd : m.session.delivery with
  | packed => exact of_pure ⟨rfl, .inl ⟨rfl, rfl⟩⟩
  | discrete =>
    refine of_call fun r => ⟨rfl, ?_⟩
    cases r with
    | ok a => exact .inl ⟨rfl, rfl⟩
    | error q => exact .inr ⟨rfl, q, rfl, rfl⟩

/-- All events are delivered, or the core panics on one of them and the rest is not. -/
theorem deliverAll_yields (es : List ButtonEvent) : Yields (deliverAll core.traced es)
    (fun xs r t => (r = .ok () ∧ xs = forwarded m.session.delivery es ∧ t = m.session.hold es) ∨
      (m.session.delivery = .discrete ∧ ∃ front e back q, es = front ++ e :: back ∧ r = .error q ∧
        xs = forwarded .discrete front ++ [.updateKey (.event e) (.error q)] ∧
        t = m.session.hold (front ++ [e]))) m := by
  induction es generalizing m with
  | nil =>
    refine of_pure (.inl ⟨rfl, ?_, rfl⟩)
    cases m.session.delivery <;> rfl
  | cons e es ih =>
    refine (deliver_yields core m e).andThen ?_ ?_
    · rintro xs _ v ⟨hv, ⟨-, rfl⟩ | ⟨-, q, hq, -⟩⟩
      · refine (ih v).imp ?_
        rw [hv]
        rintro ys r t (⟨rfl, rfl, rfl⟩ | ⟨hd, front, f, back, q, rfl, rfl, rfl, rfl⟩)
        · refine .inl ⟨rfl, ?_, rfl⟩
          cases hd : m.session.delivery <;> simp [forwarded, hold, hd]
        · change m.session.delivery = .discrete at hd
          exact .inr ⟨hd, e :: front, f, back, q, rfl, rfl, by rw [hd]; rfl, rfl⟩
      · cases hq
    · rintro xs p t ⟨rfl, ⟨h, -⟩ | ⟨hd, q, hq, rfl⟩⟩
      · cases h
      · exact .inr ⟨hd, [], e, es, p, rfl, rfl, by cases hq; rfl, rfl⟩

theorem record_yields (e : ButtonEvent) : Yields (record e)
    (fun xs r t => xs = [] ∧ (r = .ok () ∧ m.session.recorded e = .ok t ∨
      t = m.session ∧ ∃ q, r = .error q ∧ m.session.recorded e = .error q)) m := by
  unfold record
  refine get_andThen ?_
  dsimp only
  cases hr : m.session.recorder with
  | none => exact of_pure ⟨rfl, .inl ⟨rfl, by rw [recorded, hr]⟩⟩
  | some r =>
    refine ofExcept_andThen (fun r' h => of_modify rfl ⟨rfl, .inl ⟨rfl, ?_⟩⟩) fun q h => ?_
    · rw [recorded, hr]
      dsimp only
      rw [h]
      rfl
    · refine ⟨rfl, .inr ⟨rfl, q, rfl, ?_⟩⟩
      rw [recorded, hr]
      dsimp only
      rw [h]
      rfl

theorem apply_performs (e : ButtonEvent) :
    Yields (Op.act core.traced (.apply e)) (Performs m.session (.apply e)) m := by
  refine of_map ?_
  unfold Session.apply
  refine get_andThen ?_
  dsimp only
  split_ifs with live
  · refine (deliver_yields core m e).andThen ?_ ?_
    · rintro xs _ v ⟨hv, ⟨-, rfl⟩ | ⟨-, q, hq, -⟩⟩
      · refine (record_yields v e).imp ?_
        rw [hv]
        rintro ys r t ⟨rfl, ⟨rfl, h⟩ | ⟨rfl, q, rfl, h⟩⟩
        · rw [List.append_nil]
          exact .applied live (.recorded h)
        · rw [List.append_nil]
          exact .applied live (.unrecorded h)
      · cases hq
    · rintro xs p t ⟨rfl, ⟨h, -⟩ | ⟨hd, q, hq, rfl⟩⟩
      · cases h
      · cases hq
        exact .applied live (.cut hd p)
  · exact of_pure (.dropped e (Bool.eq_false_iff.mpr live))

theorem due_of_playback {s : Session} {p : Playback} (h : s.playback = some p) :
    s.due = (p.due s.steps).map fun (es, p') =>
      (es, { s.hold es with playback := if p'.isFinished then none else some p' }) := by
  rw [due, h]

theorem playDue_yields : Yields (playDue core.traced) (PlaysDue m.session) m := by
  unfold playDue
  refine get_andThen ?_
  dsimp only
  cases hp : m.session.playback with
  | none =>
    have h : m.session.due = .ok ([], m.session) := by rw [due, hp]
    have none := PlaysDue.delivered h
    cases hd : m.session.delivery <;> rw [hd] at none <;> exact of_pure none
  | some p =>
    have hdue := due_of_playback hp
    refine modify_andThen rfl (ofExcept_andThen (fun d hd => ?_) fun q hd => ?_)
    · obtain ⟨es, p'⟩ := d
      rw [hd] at hdue
      refine (deliverAll_yields core _ es).andThen ?_ ?_
      · rintro xs _ v (⟨-, rfl, hv⟩ | ⟨-, front, e, back, q, -, h, -⟩)
        · have done := PlaysDue.delivered hdue
          dsimp only
          split_ifs at done ⊢ with fin
          · refine of_modify rfl ?_
            rw [List.append_nil]
            change PlaysDue _ _ _ v.session
            rw [hv]
            exact done
          · refine of_modify rfl ?_
            rw [List.append_nil]
            change PlaysDue _ _ _ { v.session with playback := some p' }
            rw [hv]
            exact done
        · cases h
      · rintro xs q t (⟨h, -⟩ | ⟨single, front, e, back, q', rfl, h, rfl, rfl⟩)
        · cases h
        · cases h
          exact .cut hdue single q
    · rw [hd] at hdue
      exact .broken hdue

theorem takeStep_yields :
    Yields (do countStep; return (← call core.traced.step).map fun _ => true)
      (fun xs (r : Except Panic (Except Failure Bool)) t =>
        (¬ m.session.steps.toNat + 1 < UInt64.size ∧ xs = [] ∧
          r = .error (.text "attempt to add with overflow") ∧ t = m.session) ∨
        (m.session.steps.toNat + 1 < UInt64.size ∧ ∃ o, xs = [.step o] ∧
          r = o.map (fun o => o.map fun _ => true) ∧
          t = { m.session with steps := m.session.steps + 1 })) m := by
  unfold countStep
  refine andThen (P := fun xs r t => xs = [] ∧
    ((¬ m.session.steps.toNat + 1 < UInt64.size ∧ r = .error (.text "attempt to add with overflow") ∧
      t = m.session) ∨ (m.session.steps.toNat + 1 < UInt64.size ∧ r = .ok () ∧
      t = { m.session with steps := m.session.steps + 1 }))) ?_ ?_ ?_
  · refine get_andThen ?_
    split_ifs with room
    · exact of_modify rfl ⟨rfl, .inr ⟨room, rfl, rfl⟩⟩
    · exact of_throw ⟨rfl, .inl ⟨room, rfl, rfl⟩⟩
  · rintro xs _ v ⟨rfl, ⟨-, h, -⟩ | ⟨room, -, hv⟩⟩
    · cases h
    · refine call_andThen (fun a w j => of_pure ?_) fun p => ?_
      · exact .inr ⟨room, .ok a, rfl, rfl, hv⟩
      · exact .inr ⟨room, .error p, rfl, rfl, hv⟩
  · rintro xs p t ⟨rfl, ⟨full, h, rfl⟩ | ⟨-, h, -⟩⟩
    · cases h
      exact .inl ⟨full, rfl, rfl, rfl⟩
    · cases h

theorem step_performs : Yields (Op.act core.traced .step) (Performs m.session .step) m := by
  refine of_map ?_
  unfold Session.step
  refine get_andThen ?_
  split_ifs with run
  · refine (playDue_yields core m).andThen ?_ fun xs q t h => .stepped run (.cut h)
    intro xs _ v h
    refine get_andThen ?_
    dsimp only
    -- the step itself, after the core was told `zs`
    have taken : ∀ w j, Yields (do countStep; return (← call core.traced.step).map fun _ => true)
        (fun ys r t => Performs m.session .step (xs ++ (v.session.announced ++ ys))
          (r.map Answer.stepped) t) ⟨v.session, w, j⟩ := by
      intro w j
      refine (takeStep_yields core _).imp ?_
      rintro ys r t (⟨full, rfl, rfl, rfl⟩ | ⟨room, o, rfl, rfl, rfl⟩)
      · rw [List.append_nil]
        exact .stepped run (.uncounted h full)
      · rw [← List.append_assoc]
        have := Performs.stepped run (.taken h room o)
        cases o <;> exact this
    cases hd : v.session.delivery with
    | packed =>
      refine call_andThen (fun _ w j => ?_) fun q => .stepped run (.unannounced h hd q)
      have := taken w j
      rw [announced, hd] at this
      exact this
    | discrete =>
      have := taken v.world v.journal
      rw [announced, hd] at this
      exact this
  · exact of_pure (.stepIgnored (by simpa using run))

theorem display_performs (out : ByteArray) :
    Yields (Op.act core.traced (.display out)) (Performs m.session (.display out)) m := by
  refine of_map ?_
  unfold Session.display
  refine get_andThen (aside_andThen (fun memory w j => ?_) fun p => .shown out _)
  split
  · exact of_pure (.shown out _)
  · exact of_pure (.shown out _)
  · exact of_throw (.shown out _)

end Operations

end Session

namespace Op

variable {σ : Type} (core : Core σ) (op : Op)

open Session Session.Yields in
theorem act_yields (m : Machine (Traced σ)) : Yields (op.act core.traced) (Performs m.session op) m := by
  cases op with
  | loadRom rom => exact loadRom_performs core m rom
  | reset => exact reset_performs core m
  | apply e => exact apply_performs core m e
  | step => exact step_performs core m
  | display out => exact display_performs core m out
  | drainEvents => exact of_map (get_andThen (modify_andThen rfl (of_pure .drained)))
  | startRecording => exact of_map (of_modify rfl .recordingStarted)
  | stopRecording => exact of_map (get_andThen (modify_andThen rfl (of_pure .recordingStopped)))
  | play log => exact of_map (of_modify rfl (.played log))

/-- **An operation does one of the things it can do.** -/
theorem performs (m : Machine σ) : Session.Performs m.session op (m.calls core [op])
    ((op.act core).answer m) ((op.act core).after m).session := by
  obtain ⟨xs, hc, hp⟩ := op.act_yields core m.traced
  have hv := Op.act_view core.traced_projects m.traced op
  have calls : m.calls core [op] = xs := hc
  have answer : (op.act core).answer m = (op.act core.traced).answer m.traced := hv.answer_eq
  have after : (op.act core).after m = ((op.act core.traced).after m.traced).view Prod.fst :=
    hv.after_eq
  rw [calls, answer, after]
  exact hp

end Op

end EmulatorHost
