import EmulatorHost.Proofs.Session.Effect

/-!
# The call protocol of a core

Which calls a session makes on its core, and in which order.

* `Booted`: an image was accepted and the reset right after it returned.
* `CallProtocol`: what a core may rely on, whatever it answers and wherever it panics.
* `Allowed`: the same, call by call and looking back only. `Keeps`: the invariant of a session.
* **`Session.Performs.keeps`**: every operation keeps the invariant; **`Keeps.protocol`**: it gives the
  protocol.
-/

namespace EmulatorHost

/-! ## The protocol -/

/-- Some image was accepted and the reset right after it returned. -/
def Booted (t : List Exchange) : Prop := ∃ rom, [.load rom (.ok true), .reset (.ok ())] <:+: t

/-- The last call was a load that was accepted. -/
def EndsAccepted (t : List Exchange) : Prop := ∃ rom, t.getLast? = some (.load rom (.ok true))

/-- The last call told the core something, and returned. -/
def EndsTold (t : List Exchange) : Prop := ∃ input, t.getLast? = some (.updateKey input (.ok ()))

/-- What a core is told in a delivery: the whole controller or single events. -/
def Delivery.tells : Delivery → KeyInput → Prop
  | .packed, input => ∃ c, input = .state c
  | .discrete, input => ∃ e, input = .event e

/-- **What a core may rely on.** A session counts its steps in 64 bits. When the count is full, packed
delivery still tells the controller and then takes no step. -/
structure CallProtocol (d : Delivery) (t : List Exchange) : Prop where
  /-- There is no input and no step before an accepted image and a reset right after it. -/
  booted : ∀ pre x post, t = pre ++ x :: post → x.isInput → Booted pre
  /-- An accepted image is followed by a reset at once. -/
  resetNext : ∀ pre rom post, t = pre ++ .load rom (.ok true) :: post → ∃ r rest, post = .reset r :: rest
  /-- After a reset that panicked there is no input and no step before the core is booted again. -/
  bootedAgain : ∀ pre p mid x post, t = pre ++ .reset (.error p) :: (mid ++ x :: post) → x.isInput →
    Booted mid
  /-- Until then it is reset right after accepted images only. -/
  resetAgain : ∀ pre p mid x post, t = pre ++ .reset (.error p) :: (mid ++ x :: post) → x.isReset →
    Booted mid ∨ EndsAccepted mid
  /-- The core is told about input in one form only. -/
  oneForm : ∀ input r, .updateKey input r ∈ t → d.tells input
  /-- In packed delivery the core is told the controller right before every step. -/
  toldFirst : d = .packed → ∀ pre r post, t = pre ++ .step r :: post → EndsTold pre
  /-- In packed delivery a step follows at once whenever the core was told. -/
  stepNext : d = .packed → ∀ pre input post, t = pre ++ .updateKey input (.ok ()) :: post →
    pre.countP Exchange.isStep + 1 < UInt64.size → ∃ r rest, post = .step r :: rest

/-- What a call must satisfy after the calls `pre`. -/
structure Allowed (d : Delivery) (pre : List Exchange) (x : Exchange) : Prop where
  booted : x.isInput → Booted pre
  bootedAgain : ∀ front p mid, pre = front ++ .reset (.error p) :: mid → x.isInput → Booted mid
  resetAgain : ∀ front p mid, pre = front ++ .reset (.error p) :: mid → x.isReset →
    Booted mid ∨ EndsAccepted mid
  reset : EndsAccepted pre → x.isReset
  oneForm : ∀ input r, x = .updateKey input r → d.tells input
  told : d = .packed → x.isStep → EndsTold pre
  step : d = .packed → EndsTold pre → pre.countP Exchange.isStep + 1 < UInt64.size → x.isStep

/-- Every call was allowed when it was made. -/
def AllAllowed (d : Delivery) (t : List Exchange) : Prop :=
  ∀ pre x post, t = pre ++ x :: post → Allowed d pre x

/-- Nothing has to follow. -/
structure Settled (d : Delivery) (t : List Exchange) : Prop where
  accepted : ¬ EndsAccepted t
  told : d = .packed → EndsTold t → ¬ t.countP Exchange.isStep + 1 < UInt64.size

/-- The core is booted, and has been since the last reset that panicked. -/
structure Ready (t : List Exchange) : Prop where
  booted : Booted t
  again : ∀ front p mid, t = front ++ .reset (.error p) :: mid → Booted mid

/-! ## One more call -/

section OneMore

variable {d : Delivery} {t : List Exchange} {x : Exchange}

theorem concat_eq_iff {pre post : List Exchange} {y : Exchange} :
    t ++ [x] = pre ++ y :: post ↔
      (t = pre ∧ x = y ∧ post = []) ∨ ∃ mid, post = mid ++ [x] ∧ t = pre ++ y :: mid := by
  rcases List.eq_nil_or_concat post with rfl | ⟨mid, z, rfl⟩
  · rw [List.append_singleton_inj]
    simp
  · rw [List.concat_eq_append, ← List.cons_append, ← List.append_assoc, List.append_singleton_inj]
    constructor
    · rintro ⟨rfl, rfl⟩
      exact .inr ⟨mid, rfl, rfl⟩
    · rintro (⟨-, -, h⟩ | ⟨mid', h, rfl⟩)
      · simp at h
      · obtain ⟨rfl, rfl⟩ := List.append_singleton_inj.mp h
        exact ⟨rfl, rfl⟩

theorem Booted.after {mid : List Exchange} (front : List Exchange) (h : Booted mid) :
    Booted (front ++ mid) := by
  obtain ⟨rom, h⟩ := h
  exact ⟨rom, h.trans (List.suffix_append front mid).isInfix⟩

theorem Booted.before {mid : List Exchange} (h : Booted mid) (back : List Exchange) :
    Booted (mid ++ back) := by
  obtain ⟨rom, h⟩ := h
  exact ⟨rom, h.trans (List.prefix_append mid back).isInfix⟩

theorem AllAllowed.concat (h : AllAllowed d t) (hx : Allowed d t x) : AllAllowed d (t ++ [x]) := by
  intro pre y post hy
  rcases concat_eq_iff.mp hy with ⟨rfl, rfl, -⟩ | ⟨mid, -, rfl⟩
  · exact hx
  · exact h pre y mid rfl

theorem Ready.concat (h : Ready t) (hx : ∀ p, x ≠ .reset (.error p)) : Ready (t ++ [x]) := by
  refine ⟨h.booted.before _, fun front p mid ht => ?_⟩
  rcases concat_eq_iff.mp ht with ⟨-, broken, -⟩ | ⟨mid', rfl, rest⟩
  · exact absurd broken (hx p)
  · exact (h.again front p mid' rest).before _

/-- An accepted image and a reset that returns make the core ready, whatever happened before. -/
theorem Ready.of_boot (t : List Exchange) (rom : ByteArray) :
    Ready (t ++ [.load rom (.ok true)] ++ [.reset (.ok ())]) := by
  have boot : Booted [.load rom (.ok true), .reset (.ok ())] := ⟨rom, List.infix_rfl⟩
  refine ⟨by rw [List.append_assoc]; exact boot.after t, fun front p mid ht => ?_⟩
  rcases concat_eq_iff.mp ht with ⟨-, broken, -⟩ | ⟨most, rfl, rest⟩
  · cases broken
  · rcases concat_eq_iff.mp rest with ⟨-, broken, -⟩ | ⟨mid, rfl, -⟩
    · cases broken
    · rw [List.append_assoc]
      exact boot.after mid

theorem endsAccepted_concat : EndsAccepted (t ++ [x]) ↔ ∃ rom, x = .load rom (.ok true) := by
  simp [EndsAccepted]

theorem endsTold_concat : EndsTold (t ++ [x]) ↔ ∃ input, x = .updateKey input (.ok ()) := by
  simp [EndsTold]

theorem EndsAccepted.not_told (h : EndsAccepted t) : ¬ EndsTold t := by
  rintro ⟨input, told⟩
  obtain ⟨rom, h⟩ := h
  cases h.symm.trans told

theorem EndsAccepted.after_broken {front mid : List Exchange} {p : Panic}
    (h : EndsAccepted (front ++ .reset (.error p) :: mid)) : EndsAccepted mid := by
  rcases List.eq_nil_or_concat mid with rfl | ⟨mid, z, rfl⟩
  · obtain ⟨rom, h⟩ := endsAccepted_concat.mp h
    cases h
  · rw [List.concat_eq_append] at h ⊢
    rw [← List.cons_append, ← List.append_assoc, endsAccepted_concat] at h
    exact endsAccepted_concat.mpr h

theorem Settled.concat (accepted : ∀ rom, x ≠ .load rom (.ok true))
    (told : d = .packed → ∀ input, x = .updateKey input (.ok ()) →
      ¬ t.countP Exchange.isStep + 1 < UInt64.size) : Settled d (t ++ [x]) := by
  refine ⟨fun h => ?_, fun packed h => ?_⟩
  · obtain ⟨rom, rfl⟩ := endsAccepted_concat.mp h
    exact accepted rom rfl
  · obtain ⟨input, rfl⟩ := endsTold_concat.mp h
    rw [List.countP_append]
    exact told packed input rfl

/-! ## Which calls are allowed -/

namespace Allowed

theorem load (h : Settled d t) (rom : ByteArray) (r : Except Panic Bool) : Allowed d t (.load rom r) where
  booted := nofun
  bootedAgain _ _ _ _ := nofun
  resetAgain _ _ _ _ := nofun
  reset ends := absurd ends h.accepted
  oneForm _ _ := nofun
  told _ := nofun
  step packed ends room := absurd room (h.told packed ends)

theorem reset_of_accepted (h : EndsAccepted t) (r : Except Panic Unit) : Allowed d t (.reset r) where
  booted := nofun
  bootedAgain _ _ _ _ := nofun
  resetAgain _ _ _ ht _ := .inr (EndsAccepted.after_broken (ht ▸ h))
  reset _ := rfl
  oneForm _ _ := nofun
  told _ := nofun
  step _ ends _ := absurd ends h.not_told

theorem reset_of_ready (h : Settled d t) (ready : Ready t) (r : Except Panic Unit) :
    Allowed d t (.reset r) where
  booted := nofun
  bootedAgain _ _ _ _ := nofun
  resetAgain front p mid ht _ := .inl (ready.again front p mid ht)
  reset _ := rfl
  oneForm _ _ := nofun
  told _ := nofun
  step packed ends room := absurd room (h.told packed ends)

theorem tell (h : Settled d t) (ready : Ready t) {input : KeyInput} (form : d.tells input)
    (r : Except Panic Unit) : Allowed d t (.updateKey input r) where
  booted _ := ready.booted
  bootedAgain front p mid ht _ := ready.again front p mid ht
  resetAgain _ _ _ _ := nofun
  reset ends := absurd ends h.accepted
  oneForm _ _ hx := by cases hx; exact form
  told _ := nofun
  step packed ends room := absurd room (h.told packed ends)

theorem take (accepted : ¬ EndsAccepted t) (ready : Ready t) (told : d = .packed → EndsTold t)
    (r : Except Panic (Except Failure Unit)) : Allowed d t (.step r) where
  booted _ := ready.booted
  bootedAgain front p mid ht _ := ready.again front p mid ht
  resetAgain _ _ _ _ := nofun
  reset ends := absurd ends accepted
  oneForm _ _ := nofun
  told packed _ := told packed
  step _ _ _ := rfl

end Allowed

end OneMore

/-! ## The invariant of a session -/

/-- A session with the delivery `d` has made the calls `t`, every one of them allowed. -/
structure Keeps (d : Delivery) (s : Session) (t : List Exchange) : Prop where
  delivery : s.delivery = d
  allowed : AllAllowed d t
  settled : Settled d t
  /-- Only a core that is ready runs. -/
  ready : s.isRunning = true → Ready t
  counted : s.steps.toNat = t.countP Exchange.isStep

namespace Keeps

variable {d : Delivery} {s s' : Session} {t : List Exchange}

theorem of_eq (h : Keeps d s t) (delivery : s'.delivery = s.delivery) (phase : s'.phase = s.phase)
    (steps : s'.steps = s.steps) : Keeps d s' t where
  delivery := delivery.trans h.delivery
  allowed := h.allowed
  settled := h.settled
  ready run := h.ready (by rw [Session.isRunning, ← phase]; exact run)
  counted := by rw [steps]; exact h.counted

theorem fresh (d : Delivery) (base : Nat) : Keeps d (.fresh base d) [] where
  delivery := rfl
  allowed := by intro pre x post h; simp at h
  settled := ⟨by simp [EndsAccepted], by simp [EndsTold]⟩
  ready := nofun
  counted := rfl

theorem load (h : Keeps d s t) (rom : ByteArray) (r : Except Panic Bool) (hr : r ≠ .ok true) :
    Keeps d s (t ++ [.load rom r]) where
  delivery := h.delivery
  allowed := h.allowed.concat (.load h.settled rom r)
  settled := Settled.concat (by rintro rom' hx; cases hx; exact hr rfl) (by rintro - input hx; cases hx)
  ready run := (h.ready run).concat nofun
  counted := by rw [List.countP_append]; exact h.counted

theorem tell (h : Keeps d s t) (run : s.isRunning = true) (discrete : d = .discrete) (e : ButtonEvent)
    (r : Except Panic Unit) : Keeps d s (t ++ [.updateKey (.event e) r]) where
  delivery := h.delivery
  allowed := h.allowed.concat (.tell h.settled (h.ready run) (by rw [discrete]; exact ⟨e, rfl⟩) r)
  settled := Settled.concat nofun (by rw [discrete]; nofun)
  ready run := (h.ready run).concat nofun
  counted := by rw [List.countP_append]; exact h.counted

theorem forwarded (es : List ButtonEvent) (h : Keeps d s t) (run : s.isRunning = true) :
    Keeps d s (t ++ Session.forwarded d es) := by
  cases d with
  | packed => simpa using h
  | discrete =>
    induction es generalizing t with
    | nil => simpa using h
    | cons e es ih => simpa using ih (h.tell run rfl e (.ok ()))

end Keeps

/-! ## Every operation keeps the protocol -/

namespace Session

variable {d : Delivery} {s s' : Session} {t xs : List Exchange}

/-- A reset that is allowed keeps the protocol. Only one that returns lets the session run. -/
theorem Resets.keeps {r : Except Panic Unit} (h : Resets s xs r s') (delivery : s.delivery = d)
    (allowed : AllAllowed d t) (reset : ∀ r, Allowed d t (.reset r))
    (ready : Ready (t ++ [.reset (.ok ())])) (counted : s.steps.toNat = t.countP Exchange.isStep) :
    Keeps d s' (t ++ xs) := by
  have settled : ∀ r, Settled d (t ++ [.reset r]) := fun r => Settled.concat nofun nofun
  have count : ∀ r, (t ++ [Exchange.reset r]).countP Exchange.isStep = t.countP Exchange.isStep := by
    intro r
    rw [List.countP_append]
    rfl
  cases h with
  | returned =>
    refine ⟨by simpa using delivery, allowed.concat (reset _), settled _, fun _ => ready, ?_⟩
    rw [count]
    simpa using counted
  | panicked p =>
    refine ⟨by simpa using delivery, allowed.concat (reset _), settled _, fun run => ?_, ?_⟩
    · simp [isRunning] at run
    · rw [count]
      simpa using counted

theorem PlaysDue.keeps {r : Except Panic Unit} (h : PlaysDue s xs r s') (run : s.isRunning = true)
    (hs : Keeps d s t) : Keeps d s' (t ++ xs) ∧ s'.isRunning = true := by
  cases h with
  | delivered due =>
    rw [due_eq due, hs.delivery]
    exact ⟨(hs.forwarded _ run).of_eq rfl rfl rfl, run⟩
  | broken due =>
    rw [List.append_nil]
    exact ⟨hs.of_eq rfl rfl rfl, run⟩
  | cut due single q =>
    have discrete : d = .discrete := hs.delivery.symm.trans single
    rw [← List.append_assoc]
    rename_i front back e _
    have := (hs.forwarded front run).tell run discrete e (.error q)
    rw [discrete] at this ⊢
    exact ⟨this.of_eq rfl rfl rfl, run⟩

theorem Applies.keeps {e : ButtonEvent} {r : Except Panic Answer} (h : Applies s e xs r s')
    (run : s.isRunning = true) (hs : Keeps d s t) : Keeps d s' (t ++ xs) := by
  cases h with
  | recorded kept =>
    rw [recorded_eq kept, hs.delivery]
    exact (hs.forwarded [e] run).of_eq rfl rfl rfl
  | unrecorded =>
    rw [hs.delivery]
    exact (hs.forwarded [e] run).of_eq rfl rfl rfl
  | cut single q =>
    exact (hs.tell run (hs.delivery.symm.trans single) e (.error q)).of_eq rfl rfl rfl

theorem announced_keeps (hs : Keeps d s t) (run : s.isRunning = true) :
    AllAllowed d (t ++ s.announced) ∧ Ready (t ++ s.announced) ∧ ¬ EndsAccepted (t ++ s.announced) ∧
      (d = .packed → EndsTold (t ++ s.announced)) := by
  have ready := hs.ready run
  unfold announced
  rw [hs.delivery]
  cases d with
  | packed =>
    refine ⟨hs.allowed.concat (.tell hs.settled ready ⟨_, rfl⟩ _), ready.concat nofun, ?_, fun _ => ?_⟩
    · rw [endsAccepted_concat]
      nofun
    · exact endsTold_concat.mpr ⟨_, rfl⟩
  | discrete =>
    rw [List.append_nil]
    exact ⟨hs.allowed, ready, hs.settled.accepted, nofun⟩

theorem Steps.keeps {r : Except Panic Answer} (h : Steps s xs r s') (run : s.isRunning = true)
    (hs : Keeps d s t) : Keeps d s' (t ++ xs) := by
  cases h with
  | cut due => exact (due.keeps run hs).1
  | unannounced due packed q =>
    obtain ⟨hs', run'⟩ := due.keeps run hs
    have ready := hs'.ready run'
    have form : d = .packed := hs'.delivery.symm.trans packed
    rw [← List.append_assoc]
    refine ⟨hs'.delivery, hs'.allowed.concat (.tell hs'.settled ready ?_ _),
      Settled.concat nofun (fun _ _ hx => by cases hx), fun _ => ready.concat nofun, ?_⟩
    · rw [form]
      exact ⟨_, rfl⟩
    · rw [List.countP_append]
      exact hs'.counted
  | uncounted due full =>
    obtain ⟨hs', run'⟩ := due.keeps run hs
    obtain ⟨allowed, ready, accepted, -⟩ := announced_keeps hs' run'
    rw [← List.append_assoc]
    refine ⟨hs'.delivery, allowed, ⟨accepted, fun _ _ => ?_⟩, fun _ => ready, ?_⟩
    · rw [List.countP_append, countP_announced, Nat.add_zero, ← hs'.counted]
      exact full
    · rw [List.countP_append, countP_announced]
      exact hs'.counted
  | taken due room r =>
    obtain ⟨hs', run'⟩ := due.keeps run hs
    obtain ⟨allowed, ready, accepted, told⟩ := announced_keeps hs' run'
    rw [← List.append_assoc, ← List.append_assoc]
    refine ⟨hs'.delivery, allowed.concat (.take accepted ready told r), Settled.concat nofun nofun,
      fun _ => ready.concat nofun, ?_⟩
    rw [List.countP_append, List.countP_append, countP_announced, Nat.add_zero, ← hs'.counted]
    exact steps_toNat room

/-- **Every operation keeps the protocol.** -/
theorem Performs.keeps {op : Op} {r : Except Panic Answer} (h : Performs s op xs r s')
    (hs : Keeps d s t) : Keeps d s' (t ++ xs) := by
  cases h with
  | loadRefused rom => exact (hs.load rom (.ok false) (by simp)).of_eq rfl rfl rfl
  | loadPanicked rom p => exact hs.load rom (.error p) nofun
  | loadAccepted after =>
    rename_i rom xs r
    have accepted : EndsAccepted (t ++ [.load rom (.ok true)]) := endsAccepted_concat.mpr ⟨rom, rfl⟩
    have kept := after.keeps (d := d) (t := t ++ [.load rom (.ok true)])
      ((enter_delivery _ _).trans hs.delivery) (hs.allowed.concat (.load hs.settled rom _))
      (.reset_of_accepted accepted) (.of_boot t rom)
      (by rw [List.countP_append, enter_steps]; exact hs.counted)
    rw [List.append_assoc] at kept
    exact kept
  | resetIgnored => simpa using hs
  | resetReturned run after =>
    exact (after.keeps hs.delivery hs.allowed (.reset_of_ready hs.settled (hs.ready run))
      ((hs.ready run).concat nofun) hs.counted).of_eq rfl rfl rfl
  | resetPanicked run after =>
    exact after.keeps hs.delivery hs.allowed (.reset_of_ready hs.settled (hs.ready run))
      ((hs.ready run).concat nofun) hs.counted
  | dropped => simpa using hs
  | applied live after => exact after.keeps (Bool.and_eq_true_iff.mp live).1 hs
  | stepIgnored => simpa using hs
  | stepped run after => exact after.keeps run hs
  | shown => simpa using hs
  | drained =>
    rw [List.append_nil]
    exact hs.of_eq rfl rfl rfl
  | recordingStarted =>
    rw [List.append_nil]
    exact hs.of_eq rfl rfl rfl
  | recordingStopped =>
    rw [List.append_nil]
    exact hs.of_eq rfl rfl rfl
  | played log =>
    rw [List.append_nil]
    split_ifs
    · exact hs
    · exact hs.of_eq rfl rfl rfl

end Session

/-- **The invariant gives the protocol.** -/
theorem Keeps.protocol {d : Delivery} {s : Session} {t : List Exchange} (h : Keeps d s t) :
    CallProtocol d t where
  booted pre x post ht := (h.allowed pre x post ht).booted
  resetNext pre rom post ht := by
    have accepted : EndsAccepted (pre ++ [.load rom (.ok true)]) := endsAccepted_concat.mpr ⟨rom, rfl⟩
    cases post with
    | nil => exact absurd (ht ▸ accepted) h.settled.accepted
    | cons x post =>
      have := (h.allowed (pre ++ [.load rom (.ok true)]) x post (by simpa using ht)).reset accepted
      cases x with
      | reset r => exact ⟨r, post, rfl⟩
      | load => cases this
      | updateKey => cases this
      | step => cases this
  bootedAgain pre p mid x post ht :=
    (h.allowed (pre ++ .reset (.error p) :: mid) x post (by simpa using ht)).bootedAgain pre p mid rfl
  resetAgain pre p mid x post ht :=
    (h.allowed (pre ++ .reset (.error p) :: mid) x post (by simpa using ht)).resetAgain pre p mid rfl
  oneForm input r hx := by
    obtain ⟨pre, post, ht⟩ := List.append_of_mem hx
    exact (h.allowed pre _ post ht).oneForm input r rfl
  toldFirst packed pre r post ht := (h.allowed pre _ post ht).told packed rfl
  stepNext packed pre input post ht room := by
    have told : EndsTold (pre ++ [.updateKey input (.ok ())]) := endsTold_concat.mpr ⟨input, rfl⟩
    have count : (pre ++ [Exchange.updateKey input (.ok ())]).countP Exchange.isStep + 1 < UInt64.size := by
      rw [List.countP_append]
      exact room
    cases post with
    | nil => exact absurd (ht ▸ count) (h.settled.told packed (ht ▸ told))
    | cons x post =>
      have := (h.allowed (pre ++ [.updateKey input (.ok ())]) x post (by simpa using ht)).step packed
        told count
      cases x with
      | step r => exact ⟨r, post, rfl⟩
      | load => cases this
      | reset => cases this
      | updateKey => cases this

end EmulatorHost
