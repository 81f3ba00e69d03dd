import EmulatorHost.Proofs.Session.View

/-!
# Something beside a world

Beside a world there may be something that its parties never look at. What is noted there of their doings
makes no difference to these.

* `Act.noting`: an action with what came of it noted; `Act.aside`: an action of which nothing is noted.
* `Exchange`: a call that changes a core, and what came of it.
* `Core.noting`: a core with its calls noted; **`Core.noting_projects`**: without the notes it is the same core.
* `Core.aside`, `Clock.aside`, `Renderer.aside`: parties of which nothing is noted; **`Op.act_aside`**: what is
  beside their world stays as it was.
-/

namespace EmulatorHost

variable {σ τ κ ι : Type}

/-! ## Actions -/

section Actions

variable {α : Type}

/-- An action beside whose world is noted what came of it. -/
def Act.noting (x : Act σ α) (note : Except Panic α → κ → κ) : Act (σ × κ) α := fun w =>
  match x w.1 with
  | .ok a v => .ok a (v, note (.ok a) w.2)
  | .error p v => .error p (v, note (.error p) w.2)

/-- An action that leaves alone what is beside its world. -/
def Act.aside (x : Act σ α) : Act (σ × κ) α := x.noting fun _ k => k

/-- Two worlds related by `W` with the same beside them. -/
def Alongside (W : σ → τ → Prop) (w : σ × κ) (v : τ × κ) : Prop := W w.1 v.1 ∧ w.2 = v.2

variable (x : Act σ α) (note : Except Panic α → κ → κ) (w : σ × κ)

theorem Act.after_noting : (x.noting note).after w = (x.after w.1, note (x.answer w.1) w.2) := by
  unfold after answer noting
  cases x w.1 <;> rfl

theorem Act.answer_noting : (x.noting note).answer w = x.answer w.1 := by
  unfold answer noting
  cases x w.1 <;> rfl

theorem Act.noting_fst : Projects Prod.fst (x.noting note) x w := by
  unfold Projects noting
  cases x w.1 <;> rfl

/-- Notes may be read as other notes, if these are made alike. -/
theorem Act.noting_map {note' : Except Panic α → ι → ι} {f : κ → ι}
    (same : ∀ o k, f (note o k) = note' o (f k)) :
    Projects (Prod.map id f) (x.noting note) (x.noting note') w := by
  unfold Projects noting
  rw [Prod.map_fst, Prod.map_snd, id]
  cases x w.1 <;> simp only [view, Prod.map, id, same]

theorem Act.after_aside : x.aside.after w = (x.after w.1, w.2) := x.after_noting _ w

theorem Act.answer_aside : x.aside.answer w = x.answer w.1 := x.answer_noting _ w

theorem Act.aside_fst : Projects Prod.fst x.aside x w := x.noting_fst _ w

theorem Act.aside_map (f : κ → ι) : Projects (Prod.map id f) x.aside x.aside w := by
  unfold aside
  exact x.noting_map _ w fun _ _ => rfl

theorem Act.projects_aside (k : κ) (w : σ) : Projects (·, k) x x.aside w := by
  unfold Projects aside noting
  cases x w <;> rfl

theorem Act.aside_keeps : Keeps Prod.snd (x.aside : Act (σ × κ) α) := fun w => by rw [after_aside]

theorem Act.aside_andThen {β : Type} (k : α → Act σ β) :
    ((x >>= k).aside : Act (σ × κ) β) = x.aside >>= fun a => (k a).aside := by
  funext w
  rw [bind_apply]
  unfold aside noting
  rw [bind_apply]
  cases x w.1 <;> rfl

theorem Act.Ends.of_aside {x : Act σ α} {w : σ × κ} {Q : α → σ × κ → Prop} {E : σ × κ → Prop}
    (h : Ends x w.1 (fun a v => Q a (v, w.2)) fun v => E (v, w.2)) : Ends x.aside w Q E := by
  unfold Ends aside noting at *
  cases hx : x w.1 <;> rw [hx] at h <;> exact h

variable {W : σ → τ → Prop} {y : Act τ α} {x w} {v : τ × κ}

theorem Act.Agrees.noting (agrees : Agrees W x y w.1 v.1) (same : w.2 = v.2) :
    Agrees (Alongside W) (x.noting note) (y.noting note) w v := by
  obtain ⟨answer, related⟩ := agrees
  rw [Agrees, after_noting, after_noting, answer_noting, answer_noting, answer, same]
  exact ⟨rfl, related, rfl⟩

theorem Act.Agrees.aside (agrees : Agrees W x y w.1 v.1) (same : w.2 = v.2) :
    Agrees (Alongside W) x.aside y.aside w v := agrees.noting _ same

end Actions

/-! ## Parties -/

/-- A call that changes a core, and what came of it. -/
inductive Exchange where
  | load (rom : ByteArray) (outcome : Except Panic Bool)
  | reset (outcome : Except Panic Unit)
  | updateKey (input : KeyInput) (outcome : Except Panic Unit)
  | step (outcome : Except Panic (Except Failure Unit))

/-- A core beside whose world the calls are noted that change it. -/
def Core.noting (core : Core σ) (note : Exchange → κ → κ) : Core (σ × κ) where
  reset := core.reset.noting fun o => note (.reset o)
  load rom := (core.load rom).noting fun o => note (.load rom o)
  step := core.step.noting fun o => note (.step o)
  updateKey input := (core.updateKey input).noting fun o => note (.updateKey input o)
  memory := core.memory.aside
  base := core.base
  unit := core.unit

/-- A core that leaves alone what is beside its world. -/
def Core.aside (core : Core σ) : Core (σ × κ) := core.noting fun _ k => k

/-- A clock that leaves alone what is beside its world. -/
def Clock.aside (clock : Clock σ) : Clock (σ × κ) :=
  ⟨clock.now.aside, fun span => (clock.sleep span).aside⟩

/-- A renderer that leaves alone what is beside its world. -/
def Renderer.aside (renderer : Renderer σ) : Renderer (σ × κ) :=
  ⟨fun picture width height => (renderer.paint picture width height).aside⟩

namespace Core

variable (core : Core σ) (note : Exchange → κ → κ)

/-- **Without the notes it is the same core.** -/
theorem noting_projects : (core.noting note).Projects Prod.fst core where
  reset := core.reset.noting_fst fun o => note (.reset o)
  load rom := (core.load rom).noting_fst fun o => note (.load rom o)
  step := core.step.noting_fst fun o => note (.step o)
  updateKey input := (core.updateKey input).noting_fst fun o => note (.updateKey input o)
  memory := Act.aside_fst core.memory

theorem noting_map {note' : Exchange → ι → ι} {f : κ → ι} (same : ∀ e k, f (note e k) = note' e (f k)) :
    (core.noting note).Projects (Prod.map id f) (core.noting note') where
  reset w := core.reset.noting_map _ w fun _ => same _
  load rom w := (core.load rom).noting_map _ w fun _ => same _
  step w := core.step.noting_map _ w fun _ => same _
  updateKey input w := (core.updateKey input).noting_map _ w fun _ => same _
  memory w := core.memory.aside_map w f

variable {core} {W : σ → τ → Prop} {B : Core τ}

theorem Agrees.noting (agrees : Core.Agrees W core B) :
    Core.Agrees (Alongside W) (core.noting note) (B.noting note) where
  reset hw := (agrees.reset hw.1).noting (fun o => note (.reset o)) hw.2
  load rom _ _ hw := (agrees.load rom hw.1).noting (fun o => note (.load rom o)) hw.2
  step hw := (agrees.step hw.1).noting (fun o => note (.step o)) hw.2
  updateKey input _ _ hw := (agrees.updateKey input hw.1).noting (fun o => note (.updateKey input o)) hw.2
  memory hw := (agrees.memory hw.1).aside hw.2

variable (core)

theorem aside_projects : (core.aside : Core (σ × κ)).Projects Prod.fst core := core.noting_projects _

theorem projects_aside (k : κ) : core.Projects (·, k) core.aside where
  reset := Act.projects_aside _ k
  load _ := Act.projects_aside _ k
  step := Act.projects_aside _ k
  updateKey _ := Act.projects_aside _ k
  memory := Act.projects_aside _ k

end Core

/-- **What is beside the world of a core stays as it was.** -/
theorem Op.act_aside (core : Core σ) (op : Op) :
    Act.Keeps (fun m : Machine (σ × κ) => m.world.2) (op.act core.aside) := fun m =>
  congrArg (·.world.2) (Op.act_view (core.projects_aside m.world.2) (m.view Prod.fst) op).after_eq

end EmulatorHost
