import EmulatorHost.Proofs.Session.Operation

/-!
# Sessions over two worlds

Two cores in two worlds may do the same as far as a relation of the worlds goes. Then the sessions on
them do the same, and what the host has written down makes no difference to either.

* `Core.Agrees`: from worlds related by `W`, two cores answer the same and leave related worlds.
* `Machine.Like`: two machines with the same session, and worlds and journals that are related.
* **`Op.act_like`**: operations on such machines answer the same and leave such machines.
* `Core.Projects`, `Machine.view`: the case of a core seen through a view of its world; **`Op.act_view`**,
  **`Machine.run_view`**.
-/

namespace EmulatorHost

variable {σ τ : Type}

/-- From worlds related by `W`, the cores `A` and `B` answer every call alike and leave related worlds. -/
structure Core.Agrees (W : σ → τ → Prop) (A : Core σ) (B : Core τ) : Prop where
  reset {w : σ} {v : τ} (h : W w v) : Act.Agrees W A.reset B.reset w v
  load (rom : ByteArray) {w : σ} {v : τ} (h : W w v) : Act.Agrees W (A.load rom) (B.load rom) w v
  step {w : σ} {v : τ} (h : W w v) : Act.Agrees W A.step B.step w v
  updateKey (input : KeyInput) {w : σ} {v : τ} (h : W w v) :
    Act.Agrees W (A.updateKey input) (B.updateKey input) w v
  memory {w : σ} {v : τ} (h : W w v) : Act.Agrees W A.memory B.memory w v

/-- Two machines with the same session, whose worlds are related by `W` and whose journals are by `J`. -/
structure Machine.Like (W : σ → τ → Prop) (J : Journal → Journal → Prop) (m : Machine σ)
    (n : Machine τ) : Prop where
  session : m.session = n.session
  world : W m.world n.world
  journal : J m.journal n.journal

/-- Journals related by `J` stay so as the same line is written into both. -/
def Journal.Continues (J : Journal → Journal → Prop) : Prop := ∀ j k l, J j k → J (j.push l) (k.push l)

section Like

open Act.Agrees Machine

variable {W : σ → τ → Prop} {J : Journal → Journal → Prop} {m : Machine σ} {n : Machine τ}

namespace Machine.Like

theorem mapSession (h : Like W J m n) (f : Session → Session) :
    Like W J (m.mapSession f) (n.mapSession f) :=
  ⟨congrArg f h.session, h.world, h.journal⟩

theorem emit (h : Like W J m n) (e : SessionEvent) : Like W J (m.emit e) (n.emit e) := h.mapSession _

theorem note (hJ : Journal.Continues J) (h : Like W J m n) (level : Level) (message : String) :
    Like W J (m.note level message) (n.note level message) :=
  ⟨h.session, h.world, hJ _ _ _ h.journal⟩

theorem enter (hJ : Journal.Continues J) (h : Like W J m n) (p : Phase) :
    Like W J (m.enter p) (n.enter p) := by
  unfold Machine.enter
  rw [h.session]
  dsimp only
  split_ifs
  · exact h
  · exact ((h.note hJ _ _).mapSession _).emit _

end Machine.Like

theorem call_like {α : Type} {x : Act σ α} {y : Act τ α} (h : Like W J m n)
    (hxy : Act.Agrees W x y m.world n.world) :
    Act.Agrees (Like W J) (Session.call x) (Session.call y) m n :=
  of_within hxy fun _ _ hw => ⟨h.session, hw, h.journal⟩

theorem drainEvents_like (h : Like W J m n) :
    Act.Agrees (Like W J) Session.drainEvents Session.drainEvents m n := by
  unfold Session.drainEvents
  refine get_andThen ?_
  rw [h.session]
  exact andThen (of_modify (h.mapSession _)) fun _ m n h => of_pure h _

theorem record_like (h : Like W J m n) (e : ButtonEvent) :
    Act.Agrees (Like W J) (Session.record e) (Session.record e) m n := by
  unfold Session.record
  refine get_andThen ?_
  rw [h.session]
  dsimp only
  cases n.session.recorder with
  | none => exact of_pure h _
  | some r => exact andThen (of_ofExcept h _) fun r' m n h => of_modify (h.mapSession _)

theorem countStep_like (h : Like W J m n) :
    Act.Agrees (Like W J) Session.countStep Session.countStep m n := by
  unfold Session.countStep
  refine get_andThen ?_
  rw [h.session]
  exact of_ite (fun _ => of_modify (h.mapSession _)) fun _ => of_throw h _

theorem stopRecording_like (h : Like W J m n) :
    Act.Agrees (Like W J) Session.stopRecording Session.stopRecording m n := by
  unfold Session.stopRecording
  refine get_andThen ?_
  rw [h.session]
  exact andThen (of_modify (h.mapSession _)) fun _ m n h => of_pure h _

variable {A : Core σ} {B : Core τ} (hJ : Journal.Continues J) (hAB : Core.Agrees W A B)

include hAB

theorem deliver_like (h : Like W J m n) (e : ButtonEvent) :
    Act.Agrees (Like W J) (Session.deliver A e) (Session.deliver B e) m n := by
  unfold Session.deliver
  refine andThen (of_modify (h.mapSession _)) fun _ m n h => get_andThen ?_
  rw [h.session]
  cases n.session.delivery with
  | packed => exact of_pure h _
  | discrete => exact call_like h (hAB.updateKey _ h.world)

theorem deliverAll_like (h : Like W J m n) (es : List ButtonEvent) :
    Act.Agrees (Like W J) (Session.deliverAll A es) (Session.deliverAll B es) m n := by
  induction es generalizing m n with
  | nil => exact of_pure h _
  | cons e es ih => exact andThen (deliver_like hAB h e) fun _ m n h => ih h

theorem apply_like (h : Like W J m n) (e : ButtonEvent) :
    Act.Agrees (Like W J) (Session.apply A e) (Session.apply B e) m n := by
  unfold Session.apply
  refine get_andThen ?_
  rw [h.session]
  refine of_ite (fun _ => ?_) fun _ => of_pure h _
  exact andThen (deliver_like hAB h e) fun _ m n h => record_like h e

theorem display_like (h : Like W J m n) (out : ByteArray) :
    Act.Agrees (Like W J) (Session.display A out) (Session.display B out) m n := by
  unfold Session.display
  refine get_andThen ?_
  rw [h.session]
  refine andThen (call_like h (hAB.memory h.world)) fun memory m n h => ?_
  split
  · exact of_pure h _
  · exact of_pure h _
  · exact of_throw h _

include hJ

theorem resetCore_like (h : Like W J m n) :
    Act.Agrees (Like W J) (Session.resetCore A) (Session.resetCore B) m n := by
  unfold Session.resetCore
  refine andThen (of_modify (h.enter hJ _)) fun _ m n h => ?_
  exact andThen (call_like h (hAB.reset h.world)) fun _ m n h => of_modify (h.enter hJ _)

theorem loadRom_like (h : Like W J m n) (rom : ByteArray) :
    Act.Agrees (Like W J) (Session.loadRom A rom) (Session.loadRom B rom) m n := by
  unfold Session.loadRom
  refine andThen (call_like h (hAB.load rom h.world)) fun accepted m n h => ?_
  cases accepted with
  | true =>
    refine andThen (of_modify (((h.note hJ _ _).emit _).enter hJ _)) fun _ m n h => ?_
    exact andThen (resetCore_like hJ hAB h) fun _ m n h => of_pure h _
  | false => exact andThen (of_modify ((h.note hJ _ _).emit _)) fun _ m n h => of_pure h _

theorem reset_like (h : Like W J m n) :
    Act.Agrees (Like W J) (Session.reset A) (Session.reset B) m n := by
  unfold Session.reset
  refine get_andThen ?_
  rw [h.session]
  refine of_ite (fun _ => ?_) fun _ => of_pure h _
  refine andThen (of_modify (h.note hJ _ _)) fun _ m n h => ?_
  refine andThen (resetCore_like hJ hAB h) fun _ m n h => ?_
  exact andThen (of_modify (h.emit _)) fun _ m n h => of_pure h _

theorem playDue_like (h : Like W J m n) :
    Act.Agrees (Like W J) (Session.playDue A) (Session.playDue B) m n := by
  unfold Session.playDue
  refine get_andThen ?_
  rw [h.session]
  dsimp only
  cases n.session.playback with
  | none => exact of_pure h _
  | some p =>
    refine andThen (of_modify (h.mapSession _)) fun _ m n h => andThen (of_ofExcept h _) fun due m n h => ?_
    refine andThen (deliverAll_like hAB h due.1) fun _ m n h => ?_
    exact of_ite (fun _ => of_modify (h.note hJ _ _)) fun _ => of_modify (h.mapSession _)

theorem step_like (h : Like W J m n) :
    Act.Agrees (Like W J) (Session.step A) (Session.step B) m n := by
  unfold Session.step
  refine get_andThen ?_
  rw [h.session]
  refine of_ite (fun _ => ?_) fun _ => of_pure h _
  refine andThen (playDue_like hJ hAB h) fun _ m n h => get_andThen ?_
  rw [h.session]
  have counted : ∀ {m n}, Like W J m n → Act.Agrees (Like W J)
      (do Session.countStep; return (← Session.call A.step).map fun _ => true)
      (do Session.countStep; return (← Session.call B.step).map fun _ => true) m n := fun h =>
    andThen (countStep_like h) fun _ m n h =>
      andThen (call_like h (hAB.step h.world)) fun _ m n h => of_pure h _
  dsimp only
  cases n.session.delivery with
  | packed => exact andThen (call_like h (hAB.updateKey _ h.world)) fun _ m n h => counted h
  | discrete => exact counted h

/-- **Operations on machines that are alike answer the same and leave machines that are alike.** -/
theorem Op.act_like (h : Like W J m n) (op : Op) : Act.Agrees (Like W J) (op.act A) (op.act B) m n := by
  cases op with
  | loadRom rom => exact of_map _ (loadRom_like hJ hAB h rom)
  | reset => exact of_map _ (reset_like hJ hAB h)
  | apply e => exact of_map _ (apply_like hAB h e)
  | step => exact of_map _ (step_like hJ hAB h)
  | display out => exact of_map _ (display_like hAB h out)
  | drainEvents => exact of_map _ (drainEvents_like h)
  | startRecording => exact of_map _ (of_modify (h.mapSession _))
  | stopRecording => exact of_map _ (stopRecording_like h)
  | play log => exact of_map _ (of_modify (h.mapSession _))

end Like

/-! ## Views -/

/-- Through the view `f` of its world, the core `A` is the core `B`. -/
structure Core.Projects (f : σ → τ) (A : Core σ) (B : Core τ) : Prop where
  reset (w : σ) : Act.Projects f A.reset B.reset w
  load (rom : ByteArray) (w : σ) : Act.Projects f (A.load rom) (B.load rom) w
  step (w : σ) : Act.Projects f A.step B.step w
  updateKey (input : KeyInput) (w : σ) : Act.Projects f (A.updateKey input) (B.updateKey input) w
  memory (w : σ) : Act.Projects f A.memory B.memory w

theorem Core.Projects.agrees {f : σ → τ} {A : Core σ} {B : Core τ} (h : Core.Projects f A B) :
    Core.Agrees (fun w v => f w = v) A B where
  reset := fun hw => hw ▸ (h.reset _).agrees
  load rom := fun hw => hw ▸ (h.load rom _).agrees
  step := fun hw => hw ▸ (h.step _).agrees
  updateKey input := fun hw => hw ▸ (h.updateKey input _).agrees
  memory := fun hw => hw ▸ (h.memory _).agrees

theorem Core.Projects.alike {f : σ → τ} {A : Core σ} {B : Core τ} (h : Core.Projects f A B) :
    Core.Agrees (fun w v => f w = f v) A A where
  reset := (h.reset _).alike (h.reset _)
  load rom _ _ := (h.load rom _).alike (h.load rom _)
  step := (h.step _).alike (h.step _)
  updateKey input _ _ := (h.updateKey input _).alike (h.updateKey input _)
  memory := (h.memory _).alike (h.memory _)

namespace Machine

/-- A machine whose world is seen through a view. -/
def view (f : σ → τ) (m : Machine σ) : Machine τ := ⟨m.session, f m.world, m.journal⟩

theorem like_view (f : σ → τ) (m : Machine σ) : Like (fun w v => f w = v) Eq m (m.view f) :=
  ⟨rfl, rfl, rfl⟩

theorem eq_view {f : σ → τ} {m : Machine σ} {n : Machine τ} (h : Like (fun w v => f w = v) Eq m n) :
    m.view f = n := by
  obtain ⟨session, world, journal⟩ := h
  rw [view, session, world, journal]

theorem projects_of_like {α : Type} {f : σ → τ} {x : Act (Machine σ) α} {y : Act (Machine τ) α}
    {m : Machine σ} (h : Act.Agrees (Like (fun w v => f w = v) Eq) x y m (m.view f)) :
    Act.Projects (view f) x y m :=
  .of_agrees ⟨h.1, eq_view h.2⟩

end Machine

section View

open Machine

variable {f : σ → τ} {A : Core σ} {B : Core τ} (h : Core.Projects f A B) (m : Machine σ)

theorem journal_continues : Journal.Continues Eq := fun _ _ _ h => h ▸ rfl

include h

/-- **Operations agree through a view.** -/
theorem Op.act_view (op : Op) : Act.Projects (view f) (op.act A) (op.act B) m :=
  projects_of_like (Op.act_like journal_continues h.agrees (like_view f m) op)

/-- **Runs agree through a view.** -/
theorem Machine.run_view (ops : List Op) :
    (run A ops m).view f = run B ops (m.view f) := by
  induction ops generalizing m with
  | nil => rfl
  | cons op ops ih =>
    rw [run_cons, run_cons, ih, (Op.act_view h m op).after_eq]

end View

end EmulatorHost
