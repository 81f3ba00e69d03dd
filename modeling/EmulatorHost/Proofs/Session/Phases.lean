import EmulatorHost.Proofs.Session.Effect

/-!
# Phases and events

* `Op.block`: the events an operation is to leave, by the phase it begins in and what its calls came to.
* `Op.Accords`: the calls of an operation and its answer say the same; **`Session.Performs.accords`**.
* `Phase.Leads`: changes of phase without a gap, from one phase to another.
* `PhaseHistory`: how the phase of a session and all its events so far go with the calls on its core.
* **`Session.Performs.phases`**: what an operation does to the phase and the events;
  **`PhaseHistory.moves`**: a history goes on with it.
-/

namespace EmulatorHost

namespace Exchange

/-- Whether an image was refused. -/
def refused : Exchange → Bool
  | load _ (.ok false) => true
  | _ => false

/-- Whether an image was accepted. -/
def accepted : Exchange → Bool
  | load _ (.ok true) => true
  | _ => false

/-- Whether a reset returned. -/
def wasReset : Exchange → Bool
  | reset (.ok _) => true
  | _ => false

theorem accepted_iff {x : Exchange} : x.accepted = true ↔ ∃ rom, x = .load rom (.ok true) := by
  unfold accepted
  split <;> simp_all

end Exchange

/-- The events that an operation leaves when it begins in the phase `p` and makes the calls `xs`. -/
def Op.block (p : Phase) (xs : List Exchange) : Op → List SessionEvent
  | loadRom rom =>
    if xs.any Exchange.refused then [.loadFailed rom.size]
    else if xs.any Exchange.accepted then
      [.romLoaded rom.size, .phaseChanged p .romLoaded, .phaseChanged .romLoaded .paused] ++
        if xs.any Exchange.wasReset then [.phaseChanged .paused .running] else []
    else []
  | reset =>
    if p = .running then
      [.phaseChanged .running .paused] ++
        if xs.any Exchange.wasReset then [.phaseChanged .paused .running, .reset] else []
    else []
  | _ => []

/-- An operation that begins in the phase `p` makes the calls `xs` and gives the answer that goes with them. A
load hands its image to the core once, and resets it if that is accepted. Only loads and resets do either. -/
def Op.Accords (p : Phase) (xs : List Exchange) (r : Except Panic Answer) : Op → Prop
  | loadRom rom =>
    (∃ q, xs = [.load rom (.error q)] ∧ r = .error q) ∨
      xs = [.load rom (.ok false)] ∧ r = .ok (.loaded (.error ⟨rom.size⟩)) ∨
      ∃ o, xs = [.load rom (.ok true), .reset o] ∧ r = o.map fun _ => .loaded (.ok ())
  | reset =>
    if p = .running then ∃ o, xs = [.reset o] ∧ r = o.map fun _ => .wasReset true
    else xs = [] ∧ r = .ok (.wasReset false)
  | _ => ∀ x ∈ xs, x.isInput = true

@[simp] theorem Op.block_accepted (p : Phase) (rom : ByteArray) (o : Except Panic Unit) :
    (loadRom rom).block p [.load rom (.ok true), .reset o] =
      .romLoaded rom.size :: .phaseChanged p .romLoaded :: .phaseChanged .romLoaded .paused ::
        if o.isOk then [.phaseChanged .paused .running] else [] := by
  cases o <;> rfl

@[simp] theorem Op.block_reset (o : Except Panic Unit) :
    reset.block .running [.reset o] =
      .phaseChanged .running .paused :: if o.isOk then [.phaseChanged .paused .running, .reset] else [] := by
  cases o <;> rfl

/-- The events that an operation hands to its caller. -/
def Op.drained : Op → Except Panic Answer → List SessionEvent
  | drainEvents, .ok (.drained es) => es
  | _, _ => []

/-- From the phase `p` the changes among some events lead to the phase `q`. Each of them begins where the
one before it ended, and ends elsewhere. -/
def Phase.Leads (p : Phase) : List SessionEvent → Phase → Prop
  | [], q => p = q
  | .phaseChanged source target :: es, q => source = p ∧ target ≠ p ∧ Leads target es q
  | _ :: es, q => Leads p es q

theorem Phase.Leads.append {p q t : Phase} {xs ys : List SessionEvent} (h : p.Leads xs q)
    (h' : q.Leads ys t) : p.Leads (xs ++ ys) t := by
  induction xs generalizing p with
  | nil =>
    obtain rfl : p = q := h
    exact h'
  | cons x xs ih =>
    cases x with
    | phaseChanged source target =>
      obtain ⟨rfl, moved, rest⟩ := h
      exact ⟨rfl, moved, ih rest⟩
    | romLoaded size => exact ih (p := p) h
    | loadFailed size => exact ih (p := p) h
    | reset => exact ih (p := p) h

/-! ## What one operation does -/

namespace Session

variable {s t : Session} {op : Op} {xs : List Exchange} {r : Except Panic Answer}

theorem enter_events {p : Phase} (h : s.phase ≠ p) :
    (s.enter p).events = s.events ++ [.phaseChanged s.phase p] := by
  rw [enter, if_neg h]

theorem Resets.phases {o : Except Panic Unit} (h : Resets s xs o t) (awake : s.phase ≠ .paused) :
    xs = [.reset o] ∧ t.phase = (if o.isOk then .running else .paused) ∧
      t.events = s.events ++ .phaseChanged s.phase .paused ::
        if o.isOk then [.phaseChanged .paused .running] else [] := by
  cases h with
  | returned =>
    have paused : (s.enter .paused).phase ≠ .running := by simp
    refine ⟨rfl, enter_phase _ _, ?_⟩
    rw [enter_events paused, enter_events awake, enter_phase, List.append_assoc]
    rfl
  | panicked p => exact ⟨rfl, enter_phase _ _, enter_events awake⟩

/-- What input does: the phase and the events stay, and the core is told or steps. -/
def Inputs (s : Session) (xs : List Exchange) (t : Session) : Prop :=
  t.phase = s.phase ∧ t.events = s.events ∧ ∀ x ∈ xs, x.isInput = true

theorem forwarded_inputs (d : Delivery) (es : List ButtonEvent) :
    ∀ x ∈ forwarded d es, x.isInput = true := by
  cases d <;> simp [forwarded, Exchange.isInput]

theorem announced_inputs (s : Session) : ∀ x ∈ s.announced, x.isInput = true := by
  unfold announced
  cases s.delivery <;> simp [Exchange.isInput]

theorem PlaysDue.inputs {r : Except Panic Unit} (h : PlaysDue s xs r t) : Inputs s xs t := by
  cases h with
  | delivered due =>
    rw [due_eq due]
    exact ⟨rfl, rfl, forwarded_inputs _ _⟩
  | broken due => exact ⟨rfl, rfl, nofun⟩
  | cut due single q =>
    refine ⟨rfl, rfl, fun x hx => ?_⟩
    rcases List.mem_append.mp hx with hx | hx
    · exact forwarded_inputs _ _ x hx
    · rw [List.mem_singleton.mp hx]
      rfl

theorem Applies.inputs {e : ButtonEvent} (h : Applies s e xs r t) : Inputs s xs t := by
  cases h with
  | recorded kept =>
    rw [recorded_eq kept]
    exact ⟨rfl, rfl, forwarded_inputs _ _⟩
  | unrecorded => exact ⟨rfl, rfl, forwarded_inputs _ _⟩
  | cut single q => exact ⟨rfl, rfl, by simp [Exchange.isInput]⟩

theorem Steps.inputs (h : Steps s xs r t) : Inputs s xs t := by
  cases h with
  | cut due => exact due.inputs
  | unannounced due packed q =>
    obtain ⟨phase, events, inputs⟩ := due.inputs
    exact ⟨phase, events, by simpa [or_imp, forall_and, Exchange.isInput] using inputs⟩
  | uncounted due full =>
    obtain ⟨phase, events, inputs⟩ := due.inputs
    refine ⟨phase, events, fun x hx => ?_⟩
    exact (List.mem_append.mp hx).elim (inputs x) (announced_inputs _ x)
  | taken due room o =>
    obtain ⟨phase, events, inputs⟩ := due.inputs
    refine ⟨phase, events, fun x hx => ?_⟩
    simp only [List.mem_append, List.mem_singleton] at hx
    rcases hx with (hx | hx) | rfl
    · exact inputs x hx
    · exact announced_inputs _ x hx
    · rfl

theorem Performs.step_inputs (h : Performs s .step xs r t) : Inputs s xs t := by
  cases h with
  | stepIgnored idle => exact ⟨rfl, rfl, nofun⟩
  | stepped run h => exact h.inputs

theorem Performs.apply_inputs {e : ButtonEvent} (h : Performs s (.apply e) xs r t) : Inputs s xs t := by
  cases h with
  | dropped e dead => exact ⟨rfl, rfl, nofun⟩
  | applied live h => exact h.inputs

/-- How an operation can move the phase: not at all and without a reset, or by a reset that is its last
call and begins in the phase `running` or after an accepted image. -/
inductive Moves (p : Phase) (xs : List Exchange) : Phase → Prop
  | stays (still : ∀ x ∈ xs, x.isReset = false ∧ x.accepted = false) : Moves p xs p
  | resets (front : List Exchange) {o : Except Panic Unit} (last : xs = front ++ [.reset o])
      (woken : p = .running ∨ xs.any Exchange.accepted = true) :
    Moves p xs (if o.isOk then .running else .paused)

theorem Inputs.phases (h : Inputs s xs t) (silent : op.block s.phase xs = [])
    (kept : op.drained r = []) :
    Moves s.phase xs t.phase ∧ s.phase.Leads (op.block s.phase xs) t.phase ∧
      op.drained r ++ t.events = s.events ++ op.block s.phase xs := by
  obtain ⟨phase, events, inputs⟩ := h
  rw [silent, kept, phase, events, List.append_nil]
  refine ⟨.stays fun x hx => ?_, rfl, rfl⟩
  have input := inputs x hx
  cases x <;> simp_all [Exchange.isInput, Exchange.isReset, Exchange.accepted]

/-- **What an operation does to the phase and the events.** -/
theorem Performs.phases (h : Performs s op xs r t) (settled : s.phase ≠ .romLoaded) :
    Moves s.phase xs t.phase ∧ s.phase.Leads (op.block s.phase xs) t.phase ∧
      op.drained r ++ t.events = s.events ++ op.block s.phase xs := by
  have still : Moves s.phase [] s.phase := .stays nofun
  cases h with
  | loadRefused rom =>
    exact ⟨.stays (by simp [Exchange.isReset, Exchange.accepted]), rfl, rfl⟩
  | loadPanicked rom p =>
    exact ⟨.stays (by simp [Exchange.isReset, Exchange.accepted]), rfl, (List.append_nil _).symm⟩
  | loadAccepted h =>
    rename_i rom xs o
    have loaded : ((s.emit (.romLoaded rom.size)).enter .romLoaded).phase ≠ .paused := by simp
    obtain ⟨rfl, phase, events⟩ := h.phases loaded
    have begun : ((s.emit (.romLoaded rom.size)).enter .romLoaded).events =
        s.events ++ [.romLoaded rom.size, .phaseChanged s.phase .romLoaded] := by
      rw [enter_events (s := s.emit (.romLoaded rom.size)) settled]
      exact List.append_assoc _ _ _
    rw [begun, enter_phase] at events
    rw [phase, events, Op.block_accepted]
    refine ⟨.resets [.load rom (.ok true)] rfl (.inr rfl), ?_, ?_⟩
    · cases o with
      | ok _ => exact ⟨rfl, settled.symm, rfl, nofun, rfl, nofun, rfl⟩
      | error _ => exact ⟨rfl, settled.symm, rfl, nofun, rfl⟩
    · cases o <;> exact List.append_assoc _ _ _
  | resetIgnored idle =>
    have asleep : s.phase ≠ .running := fun h => by simp [isRunning, h] at idle
    rw [Op.block, if_neg asleep]
    exact ⟨still, rfl, (List.append_nil _).symm⟩
  | resetReturned run h =>
    have phase : s.phase = .running := by simpa [isRunning] using run
    obtain ⟨rfl, now, events⟩ := h.phases (by simp [phase])
    rw [phase, Op.block_reset]
    refine ⟨?_, ⟨rfl, nofun, rfl, nofun, now.symm⟩, ?_⟩
    · rw [emit, now]
      exact .resets [] rfl (.inl rfl)
    · rw [emit, events, phase]
      exact List.append_assoc _ _ _
  | resetPanicked run h =>
    have phase : s.phase = .running := by simpa [isRunning] using run
    obtain ⟨rfl, now, events⟩ := h.phases (by simp [phase])
    rw [phase, Op.block_reset]
    refine ⟨?_, ⟨rfl, nofun, now.symm⟩, ?_⟩
    · rw [now]
      exact .resets [] rfl (.inl rfl)
    · rw [events, phase]
      rfl
  | dropped => exact ⟨still, rfl, (List.append_nil _).symm⟩
  | applied live h => exact h.inputs.phases rfl rfl
  | stepIgnored => exact ⟨still, rfl, (List.append_nil _).symm⟩
  | stepped run h => exact h.inputs.phases rfl rfl
  | shown out r => exact ⟨still, rfl, (List.append_nil _).symm⟩
  | drained => exact ⟨still, rfl, rfl⟩
  | recordingStarted => exact ⟨still, rfl, (List.append_nil _).symm⟩
  | recordingStopped => exact ⟨still, rfl, (List.append_nil _).symm⟩
  | played log =>
    split_ifs
    all_goals exact ⟨still, rfl, (List.append_nil _).symm⟩

/-- **The calls of an operation and its answer say the same.** -/
theorem Performs.accords (h : Performs s op xs r t) : op.Accords s.phase xs r := by
  cases h with
  | loadRefused rom => exact .inr (.inl ⟨rfl, rfl⟩)
  | loadPanicked rom p => exact .inl ⟨p, rfl, rfl⟩
  | loadAccepted h =>
    cases h with
    | returned => exact .inr (.inr ⟨_, rfl, rfl⟩)
    | panicked p => exact .inr (.inr ⟨_, rfl, rfl⟩)
  | resetIgnored idle =>
    have asleep : s.phase ≠ .running := fun h => by simp [isRunning, h] at idle
    rw [Op.Accords, if_neg asleep]
    exact ⟨rfl, rfl⟩
  | resetReturned run h =>
    rw [Op.Accords, if_pos (beq_iff_eq.mp run)]
    cases h
    exact ⟨.ok (), rfl, rfl⟩
  | resetPanicked run h =>
    rw [Op.Accords, if_pos (beq_iff_eq.mp run)]
    cases h
    exact ⟨.error _, rfl, rfl⟩
  | applied live h => exact h.inputs.2.2
  | stepped run h => exact h.inputs.2.2
  | _ => exact nofun

end Session

/-! ## Histories -/

/-- **A history of a session.** It has made the calls `xs` on its core and left the events `es`, and is
in the phase `p`. -/
structure PhaseHistory (xs : List Exchange) (es : List SessionEvent) (p : Phase) : Prop where
  /-- An accepted image is never left without a reset. -/
  settled : p ≠ .romLoaded
  /-- The session is paused as long as the last reset of the core is one that panicked. -/
  paused : p = .paused ↔ ∃ q, (xs.filter Exchange.isReset).getLast? = some (.reset (.error q))
  /-- It is idle until the first image is accepted, and never again. -/
  idle : p = .idle ↔ ∀ rom, .load rom (.ok true) ∉ xs
  /-- The changes of phase so far lead without a gap to where it is. -/
  path : Phase.idle.Leads es p

theorem any_accepted_iff {xs : List Exchange} :
    xs.any Exchange.accepted = true ↔ ∃ rom, .load rom (.ok true) ∈ xs := by
  simp only [List.any_eq_true, Exchange.accepted_iff]
  exact ⟨fun ⟨_, hx, rom, h⟩ => ⟨rom, h ▸ hx⟩, fun ⟨rom, hx⟩ => ⟨_, hx, rom, rfl⟩⟩

namespace PhaseHistory

variable {xs ys : List Exchange} {es bs : List SessionEvent} {p q : Phase}

theorem fresh : PhaseHistory [] [] .idle where
  settled := nofun
  paused := by simp
  idle := by simp
  path := rfl

theorem idle_iff (h : PhaseHistory xs es p) : p = .idle ↔ xs.any Exchange.accepted = false := by
  rw [h.idle, ← not_exists, ← any_accepted_iff, Bool.not_eq_true]

theorem moves (h : PhaseHistory xs es p) (m : Session.Moves p ys q) (leads : p.Leads bs q) :
    PhaseHistory (xs ++ ys) (es ++ bs) q := by
  have path := h.path.append leads
  cases m with
  | stays still =>
    have noReset : ys.filter Exchange.isReset = [] := by
      simpa [List.filter_eq_nil_iff] using fun x hx => (still x hx).1
    have noImage : ∀ rom, .load rom (.ok true) ∉ ys := fun rom hx => by cases (still _ hx).2
    refine ⟨h.settled, ?_, ?_, path⟩
    · rw [List.filter_append, noReset, List.append_nil]
      exact h.paused
    · rw [h.idle]
      exact forall_congr' fun rom => by simp [noImage rom]
  | @resets front o last woken =>
    have booted : (xs ++ ys).any Exchange.accepted = true := by
      rw [List.any_append, Bool.or_eq_true]
      refine woken.imp (fun run => ?_) id
      -- a session that runs is not idle
      refine Bool.of_not_eq_false fun none => ?_
      cases run.symm.trans (h.idle_iff.mpr none)
    obtain ⟨rom, image⟩ := any_accepted_iff.mp booted
    have lastReset : ((xs ++ ys).filter Exchange.isReset).getLast? = some (.reset o) := by
      rw [last, List.filter_append, List.filter_append]
      simp [Exchange.isReset]
    refine ⟨by split_ifs <;> decide, ?_, ?_, path⟩
    · rw [lastReset]
      cases o <;> simp [Except.isOk, Except.toBool]
    · refine iff_of_false (by split_ifs <;> decide) fun none => none rom image

end PhaseHistory

theorem Session.Moves.paused {xs : List Exchange} {p : Phase} (h : Moves .paused xs p)
    (none : ∀ rom, .load rom (.ok true) ∉ xs) : p = .paused := by
  cases h with
  | stays => rfl
  | resets _ _ woken =>
    rcases woken with run | image
    · cases run
    · obtain ⟨rom, image⟩ := any_accepted_iff.mp image
      exact absurd image (none rom)

end EmulatorHost
