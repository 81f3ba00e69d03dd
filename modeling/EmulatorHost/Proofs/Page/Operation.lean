import EmulatorHost.Page.Driver
import EmulatorHost.Proofs.Scheduler.Operation

/-!
# Runs of a page driver

* `PageOp`: the calls of a page driver; `Page.run`: one after the other. The page goes on after a panic.
* `Notice`, `Dealing`: what the notices are told, and that together with their collection by the page.
* `PageOp.rigOps`, `PageOp.dealings`: what a call does with the rig, and what it tells the notices.
* **`PageOp.after_act`**: a call does this and nothing else.
-/

namespace EmulatorHost

variable {σ : Type}

/-- A call of a page driver, with its arguments. -/
inductive PageOp where
  | loadRom (rom : ByteArray)
  | reset
  | keyDown (name : String)
  | keyUp (name : String)
  | tick
  | refresh
  | stop
  | takeNotifications
  | pendingNotifications

/-- What a call does. -/
def PageOp.act (core : Core σ) (clock : Clock σ) : PageOp → Act (Page σ) Unit
  | loadRom rom => (fun _ => ()) <$> Page.loadRom core rom
  | reset => (fun _ => ()) <$> Page.reset core
  | keyDown name => (fun _ => ()) <$> Page.keyDown core name
  | keyUp name => (fun _ => ()) <$> Page.keyUp core name
  | tick => (fun _ => ()) <$> Page.tick core clock
  | refresh => (fun _ => ()) <$> Page.refresh core
  | stop => Page.stop
  | takeNotifications => (fun _ => ()) <$> Page.takeNotifications
  | pendingNotifications => (fun _ => ()) <$> Page.pendingNotifications

namespace Page

/-- The page after some calls, the first one first. -/
def run (core : Core σ) (clock : Clock σ) (ops : List PageOp) (p : Page σ) : Page σ :=
  ops.foldl (fun p op => (op.act core clock).after p) p

@[simp] theorem run_nil (core : Core σ) (clock : Clock σ) (p : Page σ) : run core clock [] p = p := rfl

@[simp] theorem run_cons (core : Core σ) (clock : Clock σ) (op : PageOp) (ops : List PageOp) (p : Page σ) :
    run core clock (op :: ops) p = run core clock ops ((op.act core clock).after p) := rfl

end Page

namespace Page

/-- The page with another rig. -/
def withRig (p : Page σ) (r : Rig σ) : Page σ := { p with rig := r }

@[simp] theorem withRig_rig (p : Page σ) (r : Rig σ) : (p.withRig r).rig = r := rfl

theorem onRig_apply {α : Type} (x : Act (Rig σ) α) (p : Page σ) :
    onRig x p = match x p.rig with
      | .ok a r => .ok a (p.withRig r)
      | .error q r => .error q (p.withRig r) := by
  unfold onRig Act.within
  cases x p.rig <;> rfl

theorem after_onRig {α : Type} (x : Act (Rig σ) α) (p : Page σ) :
    Act.after (onRig x) p = p.withRig (x.after p.rig) := Act.after_within _ _ _ _

end Page

/-! ## Notices -/

/-- Something the page is told. -/
inductive Notice where
  | message (text : String)
  | fault (text : String)
  deriving DecidableEq

/-- What is done with the notices: one is added, or the page takes those that wait. -/
inductive Dealing where
  | note (n : Notice)
  | take

namespace Page

/-- The page after a dealing with its notices. -/
def deal (p : Page σ) : Dealing → Page σ
  | .note (.message text) => { p with notices := p.notices.push text }
  | .note (.fault text) =>
    { p with
      notices := (p.notices.fault text).2
      console := if (p.notices.fault text).1 then p.console.push (.error text) else p.console }
  | .take => { p with notices := p.notices.take.2 }

@[simp] theorem deal_rig (p : Page σ) (d : Dealing) : (p.deal d).rig = p.rig := by
  rcases d with (_ | _) | _ <;> rfl

@[simp] theorem deal_keys (p : Page σ) (d : Dealing) : (p.deal d).keys = p.keys := by
  rcases d with (_ | _) | _ <;> rfl

/-- The page after some dealings with its notices, the first one first. -/
def dealAll (p : Page σ) (ds : List Dealing) : Page σ := ds.foldl deal p

@[simp] theorem dealAll_rig (p : Page σ) (ds : List Dealing) : (p.dealAll ds).rig = p.rig := by
  induction ds generalizing p with
  | nil => rfl
  | cons d ds ih => exact (ih _).trans (deal_rig p d)

@[simp] theorem dealAll_keys (p : Page σ) (ds : List Dealing) : (p.dealAll ds).keys = p.keys := by
  induction ds generalizing p with
  | nil => rfl
  | cons d ds ih => exact (ih _).trans (deal_keys p d)

/-- Some messages for the page. -/
def messages (texts : List String) : List Dealing := texts.map fun text => .note (.message text)

theorem dealAll_messages (p : Page σ) (texts : List String) :
    p.dealAll (messages texts) = { p with notices := texts.foldl Notices.push p.notices } := by
  induction texts generalizing p with
  | nil => rfl
  | cons text texts ih => exact ih _

end Page

/-! ## What a call does -/

/-- The texts about the events of a session. -/
def Session.described (s : Session) : List String := s.events.filterMap SessionEvent.describe

namespace PageOp

/-- An operation on the session, after which its events are collected unless it panicked. -/
def collecting (core : Core σ) (op : Op) (r : Rig σ) : List (RigOp σ) :=
  match (op.act core).answer r.machine with
  | .ok _ => [.session op, .session .drainEvents]
  | .error _ => [.session op]

/-- The events that are collected after an operation on the session. -/
def collected (core : Core σ) (op : Op) (r : Rig σ) : List Dealing :=
  match (op.act core).answer r.machine with
  | .ok _ => Page.messages ((op.act core).after r.machine).session.described
  | .error _ => []

/-- The event of a key that moved, for a session. -/
def applying (keys : KeyMap) (name : String) (edge : Edge) : List (RigOp σ) :=
  match keys.translate name edge with
  | some event => [.session (.apply event)]
  | none => []

/-- The notice about a reported fault. -/
def told (what : String) : Option String → List Dealing
  | some message => [.note (.fault (what ++ " fault: " ++ message))]
  | none => []

/-- What the notices are told of an answer; of a panic they are told nothing. -/
def heard {α : Type} (tell : α → List Dealing) : Except Panic α → List Dealing
  | .ok a => tell a
  | .error _ => []

/-- What a call does with the rig of a page. -/
def rigOps (core : Core σ) (clock : Clock σ) (p : Page σ) : PageOp → List (RigOp σ)
  | loadRom rom => collecting core (.loadRom rom) p.rig
  | reset => collecting core .reset p.rig
  | keyDown name => applying p.keys name .press
  | keyUp name => applying p.keys name .release
  | tick => [.tick clock]
  | refresh => [.refresh Page.renderer]
  | stop => [.stop]
  | takeNotifications => [.session .drainEvents]
  | pendingNotifications => [.session .drainEvents]

/-- What a call tells the notices of a page. -/
def dealings (core : Core σ) (clock : Clock σ) (p : Page σ) : PageOp → List Dealing
  | loadRom rom => collected core (.loadRom rom) p.rig
  | reset => collected core .reset p.rig
  | keyDown _ => []
  | keyUp _ => []
  | tick => heard (fun report => told "step" report.fault) ((Scheduler.tick core clock).answer p.rig)
  | refresh =>
    heard (fun report => told "present" report.fault) ((Scheduler.refresh core Page.renderer).answer p.rig)
  | stop => []
  | takeNotifications => Page.messages p.rig.machine.session.described ++ [.take]
  | pendingNotifications => Page.messages p.rig.machine.session.described

section Act

variable (core : Core σ) (clock : Clock σ) (p : Page σ)

theorem collectEvents_apply : Page.collectEvents p =
    .ok () ((p.withRig (p.rig.run core [.session .drainEvents])).dealAll
      (Page.messages p.rig.machine.session.described)) := by
  rw [Page.dealAll_messages]
  rfl

theorem after_collecting {α : Type} {op : Op} {x : Act (Machine σ) α} {f : α → Answer}
    (h : op.act core = f <$> x) :
    Act.after (Page.onMachine x >>= fun a => Page.collectEvents >>= fun _ => pure a) p =
      (p.withRig (p.rig.run core (collecting core op p.rig))).dealAll (collected core op p.rig) := by
  have session : ((RigOp.session op).act core).after p.rig = ⟨x.after p.rig.machine, p.rig.scheduler⟩ := by
    rw [RigOp.act, Act.after_map, Rig.onMachine, Act.after_within, h, Act.after_map]
  have acted : Act.after (Page.onMachine x) p = p.withRig (((RigOp.session op).act core).after p.rig) := by
    rw [Page.onMachine, Page.after_onRig, session, Rig.onMachine, Act.after_within]
  have answered : Act.answer (Page.onMachine x) p = x.answer p.rig.machine := by
    rw [Page.onMachine, Page.onRig, Act.answer_within, Rig.onMachine, Act.answer_within]
  have machine : (op.act core).after p.rig.machine = (((RigOp.session op).act core).after p.rig).machine := by
    rw [session, h, Act.after_map]
  unfold collecting collected
  rw [machine, h, Act.answer_map]
  cases came : x.answer p.rig.machine with
  | error q =>
    rw [Act.after_andThen_of_error (answered.trans came), acted]
    rfl
  | ok a =>
    rw [Act.after_andThen_of_ok (answered.trans came), acted]
    dsimp only [Except.map]
    rw [Act.after, Act.bind_apply, collectEvents_apply core]
    rfl

theorem answer_collecting {α : Type} (x : Act (Machine σ) α) :
    Act.answer (Page.onMachine x >>= fun a => Page.collectEvents >>= fun _ => pure a) p =
      x.answer p.rig.machine := by
  unfold Act.answer Page.onMachine Page.onRig Rig.onMachine
  rw [Act.bind_apply, Act.within, Act.within]
  cases x p.rig.machine <;> rfl

theorem after_key (name : String) (edge : Edge) :
    Act.after (Page.key core name edge) p = p.withRig (p.rig.run core (applying p.keys name edge)) := by
  unfold Page.key applying
  rw [Act.after, Act.bind_apply]
  change Act.after (match p.keys.translate name edge with | some event => _ | none => _) p = _
  cases p.keys.translate name edge with
  | none => rfl
  | some event =>
    have applied : p.rig.run core [.session (.apply event)] =
        (Rig.onMachine (Session.apply core event)).after p.rig := by
      rw [Rig.run_cons, Rig.run_nil, RigOp.act, Act.after_map, Rig.onMachine, Rig.onMachine, Act.after_within,
        Act.after_within, Op.act, Act.after_map]
    dsimp only
    rw [Act.after_andThen_quiet (fun _ _ => rfl), Page.onMachine, Page.after_onRig, applied]

theorem after_telling {α β : Type} {x : Act (Rig σ) α} {k : α → Act (Page σ) β} (tell : α → List Dealing)
    (tells : ∀ a p, (k a).after p = p.dealAll (tell a)) :
    Act.after (Page.onRig x >>= k) p =
      (p.withRig (x.after p.rig)).dealAll (heard tell (x.answer p.rig)) := by
  rw [Act.after, Act.bind_apply, Page.onRig_apply, Act.after, Act.answer]
  cases x p.rig with
  | error q r => rfl
  | ok a r => exact tells a _

end Act

/-- **What a call does**: its part with the rig, its part with the notices, and nothing else. -/
theorem after_act (core : Core σ) (clock : Clock σ) (op : PageOp) (p : Page σ) :
    (op.act core clock).after p =
      (p.withRig (p.rig.run core (op.rigOps core clock p))).dealAll (op.dealings core clock p) := by
  cases op with
  | loadRom rom =>
    rw [act, Act.after_map]
    exact after_collecting core p rfl
  | reset =>
    rw [act, Act.after_map]
    exact after_collecting core p rfl
  | keyDown name =>
    rw [act, Act.after_map]
    exact after_key core p name .press
  | keyUp name =>
    rw [act, Act.after_map]
    exact after_key core p name .release
  | tick =>
    have rig : p.rig.run core [.tick clock] = (Scheduler.tick core clock).after p.rig := Act.after_map _ _ _
    rw [act, Act.after_map, rigOps, rig]
    refine after_telling p _ fun report p => ?_
    rcases report with ⟨_, _ | _, _ | _⟩ <;> rfl
  | refresh =>
    have rig : p.rig.run core [.refresh Page.renderer] = (Scheduler.refresh core Page.renderer).after p.rig :=
      Act.after_map _ _ _
    rw [act, Act.after_map, rigOps, rig]
    refine after_telling p _ fun report p => ?_
    rcases report with ⟨_, _ | _⟩ <;> rfl
  | stop => rfl
  | takeNotifications =>
    rw [act, Act.after_map, Page.takeNotifications, Act.after, Act.bind_apply, collectEvents_apply core]
    simp only [dealings, Page.dealAll, List.foldl_append]
    rfl
  | pendingNotifications =>
    rw [act, Act.after_map, Page.pendingNotifications, Act.after, Act.bind_apply, collectEvents_apply core]
    rfl

end PageOp

namespace Page

theorem rig_after_act (core : Core σ) (clock : Clock σ) (op : PageOp) (p : Page σ) :
    ((op.act core clock).after p).rig = p.rig.run core (op.rigOps core clock p) := by
  rw [PageOp.after_act, dealAll_rig, withRig_rig]

theorem run_induction {core : Core σ} {clock : Clock σ} {P : Rig σ → Prop}
    (keeps : ∀ op r, P r → P (((op : RigOp σ).act core).after r)) (ops : List PageOp) {p : Page σ}
    (h : P p.rig) : P (run core clock ops p).rig := by
  induction ops generalizing p with
  | nil => exact h
  | cons op ops ih =>
    refine ih ?_
    rw [rig_after_act]
    exact Rig.run_induction keeps _ h

theorem create_eq_ok {core : Core σ} {text : Option String} {w : σ} {start : Page σ}
    (h : create core text w = .ok start) :
    ∃ config cadence, start = configured core config cadence w := by
  let paced (config : Config) : Except ConfigError (Page σ) :=
    config.cadence core.unit >>= fun cadence => pure (configured core config cadence w)
  have opened (config : Config) (h : paced config = .ok start) :
      ∃ config cadence, start = configured core config cadence w := by
    dsimp only [paced] at h
    cases given : config.cadence core.unit with
    | error e =>
      rw [given] at h
      cases h
    | ok cadence =>
      rw [given] at h
      exact ⟨config, cadence, (Except.ok.inj h).symm⟩
  cases text with
  | none => exact opened .standard h
  | some text =>
    have h : (Config.ofJson text >>= paced) = .ok start := h
    cases read : Config.ofJson text with
    | error e =>
      rw [read] at h
      cases h
    | ok config =>
      rw [read] at h
      exact opened config h

theorem configured_rig (core : Core σ) (config : Config) (cadence : Cadence) (w : σ) :
    (configured core config cadence w).rig = ⟨.configured core config w, .fresh cadence⟩ := by
  unfold configured
  dsimp only
  split_ifs <;> rfl

theorem configured_session (core : Core σ) (config : Config) (cadence : Cadence) (w : σ) :
    (configured core config cadence w).rig.machine.session = .fresh core.base config.delivery := by
  rw [configured_rig, Machine.configured]
  dsimp only
  split
  · split_ifs <;> rfl
  · rfl

end Page

end EmulatorHost
