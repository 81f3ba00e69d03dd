import EmulatorHost.Proofs.Page.Operation
import EmulatorHost.Proofs.Scheduler.Faults
import EmulatorHost.Proofs.Scheduler.Phases

/-!
# What a page is told

Loads and resets reach the notices of a page through the events of its session, faults without that way
round. They stay in order, since events wait only while the session is paused, where no fault can occur.

* `PageOp.outcomes`: what came of a call: of a load or a reset by the calls on the core, of a callback by
  its report.
* `Session.Orderly`: events wait only while the session is paused.
* **`PageOp.notes_act`**: what a call tells the notices, and what waits after it, is what waited before it
  and then what came of it.
* `newFaults`: the faults that do not repeat the notice before them.
* **`Page.notices_chronological`**: a page is told what came of its calls, in order and once each.
-/

namespace EmulatorHost

variable {σ : Type}

/-! ## Outcomes -/

namespace Exchange

/-- The notice about a load of an image. -/
def loadNotice : Exchange → Option Notice
  | load rom (.ok true) => some (.message ("loaded ROM (" ++ toString rom.size ++ " bytes)"))
  | load rom (.ok false) => some (.message ("ROM rejected (" ++ toString rom.size ++ " bytes)"))
  | _ => none

/-- The notice about a reset that a page asked for. -/
def resetNotice : Exchange → Option Notice
  | reset (.ok _) => some (.message "reset")
  | _ => none

end Exchange

/-- The notices about the calls that an operation of a page makes on the core. -/
def Op.notices (xs : List Exchange) : Op → List Notice
  | loadRom _ => xs.filterMap Exchange.loadNotice
  | reset => xs.filterMap Exchange.resetNotice
  | _ => []

/-- The notice about the fault that a callback reports. -/
def faultNotices (what : String) : Except Panic (Option String) → List Notice
  | .ok (some message) => [.fault (what ++ " fault: " ++ message)]
  | .ok none => []
  | .error _ => []

/-- What came of a call that a page is to be told about. -/
def PageOp.outcomes (core : Core σ) (clock : Clock σ) (p : Page σ) : PageOp → List Notice
  | loadRom rom => (Op.loadRom rom).notices (p.rig.calls core [.session (.loadRom rom)])
  | reset => Op.reset.notices (p.rig.calls core [.session .reset])
  | tick => faultNotices "step" (((Scheduler.tick core clock).answer p.rig).map (·.fault))
  | refresh => faultNotices "present" (((Scheduler.refresh core Page.renderer).answer p.rig).map (·.fault))
  | keyDown _ => []
  | keyUp _ => []
  | stop => []
  | takeNotifications => []
  | pendingNotifications => []

/-- What a dealing tells the notices. -/
def Dealing.note? : Dealing → Option Notice
  | note n => some n
  | take => none

namespace Page

/-- What some dealings tell the notices. -/
def notes (ds : List Dealing) : List Notice := ds.filterMap Dealing.note?

@[simp] theorem notes_append (ds es : List Dealing) : notes (ds ++ es) = notes ds ++ notes es :=
  List.filterMap_append

@[simp] theorem notes_messages (texts : List String) : notes (messages texts) = texts.map .message := by
  rw [notes, messages, List.filterMap_map, ← List.filterMap_eq_map]
  rfl

variable (core : Core σ) (clock : Clock σ)

/-- What the calls of a run do with the notices, the first one first. -/
def dealings : List PageOp → Page σ → List Dealing
  | [], _ => []
  | op :: ops, p => op.dealings core clock p ++ dealings ops ((op.act core clock).after p)

/-- What came of the calls of a run, the first one first. -/
def outcomes : List PageOp → Page σ → List Notice
  | [], _ => []
  | op :: ops, p => op.outcomes core clock p ++ outcomes ops ((op.act core clock).after p)

end Page

/-! ## Events that wait -/

namespace Session

/-- The notices about the events that wait. -/
def notes (s : Session) : List Notice := s.described.map .message

/-- Events to be told about wait only while the session is paused. -/
def Orderly (s : Session) : Prop := s.notes ≠ [] → s.phase = .paused

variable {s t : Session} {op : Op} {xs : List Exchange} {r : Except Panic Answer}

theorem notes_emit (s : Session) (e : SessionEvent) :
    (s.emit e).notes = s.notes ++ (e.describe.map Notice.message).toList := by
  unfold notes described emit
  rw [List.filterMap_append, List.map_append]
  cases e <;> rfl

@[simp] theorem notes_enter (s : Session) (p : Phase) : (s.enter p).notes = s.notes := by
  unfold enter
  split_ifs
  · rfl
  · exact (notes_emit { s with phase := p } (.phaseChanged s.phase p)).trans (List.append_nil _)

theorem Resets.notes {o : Except Panic Unit} (h : Resets s xs o t) :
    t.notes = s.notes ∧ xs = [.reset o] ∧ (o.isOk = false → t.phase = .paused) := by
  cases h with
  | returned => exact ⟨by simp, rfl, nofun⟩
  | panicked p => exact ⟨by simp, rfl, fun _ => enter_phase _ _⟩

theorem Inputs.notes (h : Inputs s xs t) : t.notes = s.notes := by
  unfold Session.notes described
  rw [h.2.1]

theorem Inputs.orderly (h : Inputs s xs t) (hs : s.Orderly) : t.Orderly := by
  rw [Orderly, h.notes, h.1]
  exact hs

/-- **An operation leaves an event for each notice about it**, unless it is the one that takes them. -/
theorem Performs.notes (h : Performs s op xs r t) (leaves : op ≠ .drainEvents) :
    t.notes = s.notes ++ op.notices xs := by
  cases h with
  | loadRefused rom => exact notes_emit _ _
  | loadPanicked rom p => exact (List.append_nil _).symm
  | loadAccepted h =>
    obtain ⟨same, rfl, -⟩ := h.notes
    rw [same, notes_enter, notes_emit]
    rfl
  | resetIgnored idle => exact (List.append_nil _).symm
  | resetReturned run h =>
    obtain ⟨same, rfl, -⟩ := h.notes
    rw [notes_emit, same]
    rfl
  | resetPanicked run h =>
    obtain ⟨same, rfl, -⟩ := h.notes
    rw [same]
    exact (List.append_nil _).symm
  | dropped => exact (List.append_nil _).symm
  | applied live h => exact h.inputs.notes.trans (List.append_nil _).symm
  | stepIgnored => exact (List.append_nil _).symm
  | stepped run h => exact h.inputs.notes.trans (List.append_nil _).symm
  | shown out r => exact (List.append_nil _).symm
  | drained => exact absurd rfl leaves
  | recordingStarted => exact (List.append_nil _).symm
  | recordingStopped => exact (List.append_nil _).symm
  | played log =>
    split_ifs
    all_goals exact (List.append_nil _).symm

/-- A load or a reset that panics leaves the session paused, or leaves it alone. -/
theorem Performs.orderly (h : Performs s op xs r t) (quiet : op.isQuiet = true) (panicked : r.isOk = false)
    (hs : s.Orderly) : t.Orderly := by
  cases h with
  | loadRefused rom => cases panicked
  | loadPanicked rom p => exact hs
  | loadAccepted h =>
    rename_i o
    exact fun _ => h.notes.2.2 (by cases o <;> [rfl; cases panicked])
  | resetIgnored idle => exact hs
  | resetReturned run h => cases panicked
  | resetPanicked run h => exact fun _ => h.notes.2.2 rfl
  | shown out r => exact hs
  | drained => cases panicked
  | dropped => cases quiet
  | applied => cases quiet
  | stepIgnored => cases quiet
  | stepped => cases quiet
  | recordingStarted => cases quiet
  | recordingStopped => cases quiet
  | played => cases quiet

end Session

/-! ## One call -/

section Step

variable (core : Core σ) (clock : Clock σ)

theorem RigOp.callback_session (op : RigOp σ) (r : Rig σ) (callback : op.isCallback = true) :
    ((op.act core).after r).machine.session.phase = r.machine.session.phase ∧
      ((op.act core).after r).machine.session.notes = r.machine.session.notes := by
  have performs := op.performs core r
  generalize ((op.act core).after r).machine.session = t at performs
  generalize r.calls core [op] = xs at performs
  cases performs with
  | asked h => cases callback
  | ticked clock h => exact ⟨h.step_inputs.1, h.step_inputs.notes⟩
  | waited clock => exact ⟨rfl, rfl⟩
  | refreshed renderer => exact ⟨rfl, rfl⟩
  | stopped => cases callback

theorem Scheduler.running_of_tick_fault {r : Rig σ} {report : TickReport} {message : String}
    (answered : (tick core clock).answer r = .ok report) (faulty : report.fault = some message) :
    r.machine.session.phase = .running := by
  obtain ⟨-, since, reads, -⟩ := tick_faulty core clock (Act.eq_of_answer answered) (by rw [faulty]; rfl)
  exact beq_iff_eq.mp (RigOp.readings_tick.mp reads).2.1

theorem Scheduler.running_of_refresh_fault {renderer : Renderer σ} {r : Rig σ} {report : RefreshReport}
    {message : String} (answered : (refresh core renderer).answer r = .ok report)
    (faulty : report.fault = some message) : r.machine.session.phase = .running := by
  refine beq_iff_eq.mp (Bool.of_not_eq_false fun idle => ?_)
  rw [Act.answer_of_ok (refresh_idle core renderer (.inr idle))] at answered
  cases answered
  cases faulty

/-- A fault is told in order, as no event waits while the session runs. -/
theorem Session.Orderly.fault {s : Session} (orderly : s.Orderly) {o : Except Panic (Option String)}
    (runs : ∀ message, o = .ok (some message) → s.phase = .running) (what : String) :
    faultNotices what o ++ s.notes = s.notes ++ faultNotices what o := by
  rcases o with p | _ | message
  · exact (List.append_nil _).symm
  · exact (List.append_nil _).symm
  · -- events wait only while paused, so a fault overtakes none of them
    have none : s.notes = [] := by
      by_contra waiting
      have paused := orderly waiting
      rw [runs message rfl] at paused
      cases paused
    rw [none]
    rfl

namespace PageOp

theorem collecting_notes (op : Op) (quiet : op.isQuiet = true) (leaves : op ≠ .drainEvents) {r : Rig σ}
    (orderly : r.machine.session.Orderly) :
    Page.notes (collected core op r) ++ (r.run core (collecting core op r)).machine.session.notes =
        r.machine.session.notes ++ op.notices (r.calls core [.session op]) ∧
      (r.run core (collecting core op r)).machine.session.Orderly := by
  have performs := RigOp.session_performs core r op
  have left := performs.notes leaves
  have machine : (((RigOp.session op).act core).after r).machine = (op.act core).after r.machine := by
    rw [RigOp.act, Act.after_map, Rig.onMachine, Act.after_within]
  unfold collecting collected
  cases answered : (op.act core).answer r.machine with
  | ok a =>
    refine ⟨?_, fun waiting => absurd rfl waiting⟩
    rw [← left, machine, Page.notes_messages]
    exact List.append_nil _
  | error e =>
    rw [answered] at performs
    exact ⟨left, performs.orderly quiet rfl orderly⟩

theorem applying_notes (keys : KeyMap) (name : String) (edge : Edge) {r : Rig σ}
    (orderly : r.machine.session.Orderly) :
    (r.run core (applying keys name edge)).machine.session.notes = r.machine.session.notes ∧
      (r.run core (applying keys name edge)).machine.session.Orderly := by
  unfold applying
  cases keys.translate name edge with
  | none => exact ⟨rfl, orderly⟩
  | some event =>
    have inputs := (RigOp.session_performs core r (.apply event)).apply_inputs
    exact ⟨inputs.notes, inputs.orderly orderly⟩

theorem notes_heard {α : Type} (what : String) (fault : α → Option String) (o : Except Panic α) :
    Page.notes (heard (fun report => told what (fault report)) o) = faultNotices what (o.map fault) := by
  cases o with
  | error p => rfl
  | ok report =>
    unfold heard told
    dsimp only [Except.map]
    cases fault report <;> rfl

/-- **A call is told about as it happened**: what it tells the notices, and what waits after it, is what
waited before it and then what came of it. -/
theorem notes_act (op : PageOp) {p : Page σ} (orderly : p.rig.machine.session.Orderly) :
    Page.notes (op.dealings core clock p) ++ ((op.act core clock).after p).rig.machine.session.notes =
        p.rig.machine.session.notes ++ op.outcomes core clock p ∧
      ((op.act core clock).after p).rig.machine.session.Orderly := by
  rw [Page.rig_after_act]
  have callback (op : RigOp σ) (callback : op.isCallback = true) :
      (p.rig.run core [op]).machine.session.notes = p.rig.machine.session.notes ∧
        (p.rig.run core [op]).machine.session.Orderly := by
    obtain ⟨phase, notes⟩ := op.callback_session core p.rig callback
    refine ⟨notes, fun waiting => ?_⟩
    rw [Rig.run_cons, Rig.run_nil, phase]
    rw [Rig.run_cons, Rig.run_nil, notes] at waiting
    exact orderly waiting
  cases op with
  | loadRom rom => exact collecting_notes core (.loadRom rom) rfl nofun orderly
  | reset => exact collecting_notes core .reset rfl nofun orderly
  | keyDown name =>
    obtain ⟨same, orderly⟩ := applying_notes core p.keys name .press orderly
    exact ⟨same.trans (List.append_nil _).symm, orderly⟩
  | keyUp name =>
    obtain ⟨same, orderly⟩ := applying_notes core p.keys name .release orderly
    exact ⟨same.trans (List.append_nil _).symm, orderly⟩
  | tick =>
    obtain ⟨same, kept⟩ := callback (.tick clock) rfl
    refine ⟨?_, kept⟩
    rw [dealings, notes_heard, rigOps, same]
    refine orderly.fault (fun message faulty => ?_) "step"
    cases answered : (Scheduler.tick core clock).answer p.rig with
    | error e =>
      rw [answered] at faulty
      cases faulty
    | ok report =>
      rw [answered] at faulty
      exact Scheduler.running_of_tick_fault core clock answered (Except.ok.inj faulty)
  | refresh =>
    obtain ⟨same, kept⟩ := callback (.refresh Page.renderer) rfl
    refine ⟨?_, kept⟩
    rw [dealings, notes_heard, rigOps, same]
    refine orderly.fault (fun message faulty => ?_) "present"
    cases answered : (Scheduler.refresh core Page.renderer).answer p.rig with
    | error e =>
      rw [answered] at faulty
      cases faulty
    | ok report =>
      rw [answered] at faulty
      exact Scheduler.running_of_refresh_fault core answered (Except.ok.inj faulty)
  | stop => exact ⟨(List.append_nil _).symm, orderly⟩
  | takeNotifications =>
    refine ⟨?_, fun waiting => absurd rfl waiting⟩
    rw [dealings, Page.notes_append, Page.notes_messages, List.append_assoc]
    rfl
  | pendingNotifications =>
    refine ⟨?_, fun waiting => absurd rfl waiting⟩
    rw [dealings, Page.notes_messages]
    rfl

end PageOp

end Step

/-! ## Runs -/

namespace Page

variable (core : Core σ) (clock : Clock σ)

theorem dealings_append (front back : List PageOp) (p : Page σ) :
    p.dealings core clock (front ++ back) =
      p.dealings core clock front ++ (p.run core clock front).dealings core clock back := by
  induction front generalizing p with
  | nil => rfl
  | cons op front ih =>
    rw [List.cons_append, dealings, ih, ← List.append_assoc]
    rfl

/-- **A run is told about as it happened.** -/
theorem notes_run (ops : List PageOp) {p : Page σ} (orderly : p.rig.machine.session.Orderly) :
    notes (p.dealings core clock ops) ++ (p.run core clock ops).rig.machine.session.notes =
      p.rig.machine.session.notes ++ p.outcomes core clock ops := by
  induction ops generalizing p with
  | nil => exact (List.append_nil _).symm
  | cons op ops ih =>
    obtain ⟨told, kept⟩ := op.notes_act core clock orderly
    calc notes (p.dealings core clock (op :: ops)) ++ (p.run core clock (op :: ops)).rig.machine.session.notes
      _ = notes (op.dealings core clock p) ++ (notes (((op.act core clock).after p).dealings core clock ops) ++
            (((op.act core clock).after p).run core clock ops).rig.machine.session.notes) := by
          rw [dealings, notes_append, run_cons, List.append_assoc]
      _ = (notes (op.dealings core clock p) ++ ((op.act core clock).after p).rig.machine.session.notes) ++
            ((op.act core clock).after p).outcomes core clock ops := by rw [ih kept, List.append_assoc]
      _ = p.rig.machine.session.notes ++ p.outcomes core clock (op :: ops) := by
          rw [told, outcomes, List.append_assoc]

theorem notes_taken (ops : List PageOp) {p : Page σ} (orderly : p.rig.machine.session.Orderly) :
    notes (p.dealings core clock (ops ++ [.takeNotifications])) =
      p.rig.machine.session.notes ++ p.outcomes core clock ops := by
  rw [← notes_run core clock ops orderly, dealings_append, notes_append]
  refine congrArg _ ?_
  change notes ((messages _ ++ [.take]) ++ []) = _
  rw [List.append_nil, notes_append, notes_messages]
  exact List.append_nil _

end Page

/-! ## The notices of a page -/

namespace Notices

/-- The notices after a dealing with them. -/
def deal (n : Notices) : Dealing → Notices
  | .note (.message text) => n.push text
  | .note (.fault text) => (n.fault text).2
  | .take => n.take.2

@[simp] theorem enqueue_lastFault (n : Notices) (message : String) :
    (n.enqueue message).lastFault = n.lastFault := by
  unfold enqueue
  split_ifs <;> rfl

@[simp] theorem flush_lastFault (n : Notices) : n.flush.lastFault = n.lastFault := by
  unfold flush
  split_ifs
  · rfl
  · exact enqueue_lastFault _ _

/-- The notices were told `last` before anything else. -/
def Follows (n : Notices) (last : Option Notice) : Prop :=
  ∀ text, n.lastFault = some text ↔ last = some (.fault text)

theorem Follows.push (n : Notices) (text : String) : (n.push text).Follows (some (.message text)) := by
  have forgotten : (n.push text).lastFault = none := enqueue_lastFault _ _
  intro fault
  simp [forgotten]

theorem Follows.fault {n : Notices} {last : Option Notice} (h : n.Follows last) (text : String) :
    (n.fault text).2.Follows (some (.fault text)) ∧ ((n.fault text).1 = true ↔ last ≠ some (.fault text)) := by
  unfold Notices.fault
  split_ifs with again
  · have same : last = some (.fault text) := (h text).mp again
    exact ⟨same ▸ h, by simp [same]⟩
  · have other : last ≠ some (.fault text) := mt (h text).mpr again
    exact ⟨fun fault => by simp, by simp [other]⟩

theorem Follows.take {n : Notices} {last : Option Notice} (h : n.Follows last) : n.take.2.Follows last := by
  have kept : n.take.2.lastFault = n.lastFault := flush_lastFault n
  rw [Follows, kept]
  exact h

end Notices

/-- The faults among some notices that do not repeat the notice before them, where `last` came first. -/
def newFaults (last : Option Notice) : List Notice → List String
  | [] => []
  | .message text :: ns => newFaults (some (.message text)) ns
  | .fault text :: ns =>
    (if last = some (.fault text) then [] else [text]) ++ newFaults (some (.fault text)) ns

namespace Page

theorem deal_notices (p : Page σ) (d : Dealing) : (p.deal d).notices = p.notices.deal d := by
  rcases d with (_ | _) | _ <;> rfl

theorem dealAll_notices (p : Page σ) (ds : List Dealing) :
    (p.dealAll ds).notices = ds.foldl Notices.deal p.notices := by
  induction ds generalizing p with
  | nil => rfl
  | cons d ds ih => exact (ih _).trans (by rw [deal_notices]; rfl)

/-- **The console gets the faults that do not repeat the notice before them.** -/
theorem dealAll_console (ds : List Dealing) (p : Page σ) {last : Option Notice} (h : p.notices.Follows last) :
    (p.dealAll ds).console.toList = p.console.toList ++ (newFaults last (notes ds)).map .error := by
  induction ds generalizing p last with
  | nil => exact (List.append_nil _).symm
  | cons d ds ih =>
    rcases d with (text | text) | _
    · exact ih _ (.push p.notices text)
    · obtain ⟨follows, isNew⟩ := h.fault text
      have rest := ih (p.deal (.note (.fault text))) follows
      have told : (p.deal (.note (.fault text))).console.toList =
          p.console.toList ++ (if last = some (.fault text) then [] else [text]).map .error := by
        change (if (p.notices.fault text).1 = true then _ else _ : Array ConsoleLine).toList = _
        by_cases again : last = some (.fault text)
        · rw [if_neg (mt isNew.mp (not_not.mpr again)), if_pos again]
          exact (List.append_nil _).symm
        · rw [if_pos (isNew.mpr again), if_neg again]
          exact Array.toList_push
      calc ((p.deal (.note (.fault text))).dealAll ds).console.toList
        _ = _ := rest
        _ = p.console.toList ++ (newFaults last (.fault text :: notes ds)).map .error := by
            rw [told, newFaults, List.map_append, List.append_assoc]
    · exact ih _ h.take

theorem dealAll_withRig (p : Page σ) (ds : List Dealing) (r : Rig σ) :
    (p.dealAll ds).withRig r = (p.withRig r).dealAll ds := by
  induction ds generalizing p with
  | nil => rfl
  | cons d ds ih =>
    refine (ih _).trans (congrArg (dealAll · ds) ?_)
    rcases d with (_ | _) | _ <;> rfl

variable (core : Core σ) (clock : Clock σ)

/-- **A run does its dealings with the notices, and nothing else.** -/
theorem run_eq (ops : List PageOp) (p : Page σ) :
    p.run core clock ops = (p.withRig (p.run core clock ops).rig).dealAll (p.dealings core clock ops) := by
  induction ops generalizing p with
  | nil => rfl
  | cons op ops ih =>
    rw [run_cons, dealings, dealAll, List.foldl_append]
    refine (ih _).trans (congrArg (dealAll · _) ?_)
    generalize (((op.act core clock).after p).run core clock ops).rig = r
    rw [PageOp.after_act, dealAll_withRig]
    rfl

theorem dealings_congr (ops : List PageOp) {p q : Page σ} (rig : p.rig = q.rig) (keys : p.keys = q.keys) :
    p.dealings core clock ops = q.dealings core clock ops := by
  induction ops generalizing p q with
  | nil => rfl
  | cons op ops ih =>
    have told : op.dealings core clock p = op.dealings core clock q := by
      cases op <;> simp only [PageOp.dealings, rig]
    have did : op.rigOps core clock p = op.rigOps core clock q := by
      cases op <;> simp only [PageOp.rigOps, rig, keys]
    rw [dealings, dealings, told]
    refine congrArg _ (ih ?_ ?_)
    · rw [rig_after_act, rig_after_act, did, rig]
    · rw [PageOp.after_act, PageOp.after_act, dealAll_keys, dealAll_keys]
      exact keys

/-- What a page is told as it begins: that it is configured for steps of another unit than the core's. -/
def mismatch (core : Core σ) (unit : StepUnit) : List String :=
  if unit = core.unit then []
  else ["configured for " ++ unit.label ++ " steps but the core steps by " ++ core.unit.label]

theorem newFaults_mismatch (unit : StepUnit) (ns : List Notice) :
    newFaults none ((mismatch core unit).map .message ++ ns) =
      newFaults ((mismatch core unit).map Notice.message).getLast? ns := by
  unfold mismatch
  split_ifs <;> rfl

theorem create_notices {text : Option String} {w : σ} {start : Page σ} (created : create core text w = .ok start) :
    let first := mismatch core start.rig.scheduler.cadence.unit
    start.notices = (messages first).foldl Notices.deal .empty ∧
      start.notices.Follows (first.map Notice.message).getLast? ∧
      start.console.toList = first.map .warning ∧ start.rig.machine.session.notes = [] := by
  obtain ⟨config, cadence, rfl⟩ := create_eq_ok created
  have silent : (configured core config cadence w).rig.machine.session.notes = [] := by
    rw [configured_session]
    rfl
  have unit : (configured core config cadence w).rig.scheduler.cadence = cadence := by
    rw [configured_rig]
    rfl
  rw [silent, unit]
  unfold configured mismatch
  dsimp only
  split_ifs
  · refine ⟨rfl, fun text => ?_, rfl, rfl⟩
    simp [Notices.empty]
  · exact ⟨rfl, .push .empty _, rfl, rfl⟩

/-- **Notices come in order, and once each.** Whatever a page calls, and wherever the core panics: the
notices a run leaves are those of its dealings with them, whatever they held before. Up to any collection
by the page these are the mismatch of units, if there is one, and then what came of the calls, in order.
The console gets every fault that does not repeat the notice before it. And what came of a load or a reset is
what the page gets to know as its call returns. -/
theorem notices_chronological {text : Option String} {w : σ} {start : Page σ}
    (created : create core text w = .ok start) (ops : List PageOp) :
    let first := mismatch core start.rig.scheduler.cadence.unit
    let dealings := messages first ++ start.dealings core clock ops
    (∀ notices, (run core clock ops { start with notices }).notices =
      (start.dealings core clock ops).foldl Notices.deal notices) ∧
    (start.run core clock ops).notices = dealings.foldl Notices.deal .empty ∧
    notes (messages first ++ start.dealings core clock (ops ++ [.takeNotifications])) =
      first.map .message ++ start.outcomes core clock ops ∧
    (start.run core clock ops).console.toList =
      first.map .warning ++ (newFaults none (notes dealings)).map .error ∧
    let now := start.run core clock ops
    (∀ rom, (Op.loadRom rom).Accords now.rig.machine.session.phase
      (now.rig.calls core [.session (.loadRom rom)]) (((loadRom core rom).answer now).map .loaded)) ∧
    Op.reset.Accords now.rig.machine.session.phase (now.rig.calls core [.session .reset])
      (((reset core).answer now).map .wasReset) := by
  intro first dealings
  obtain ⟨begun, follows, console, silent⟩ := create_notices core created
  have orderly : start.rig.machine.session.Orderly := fun waiting => absurd silent waiting
  have leaves (p : Page σ) : (p.run core clock ops).notices =
      (p.dealings core clock ops).foldl Notices.deal p.notices := by
    rw [run_eq, dealAll_notices]
    rfl
  refine ⟨fun notices => ?_, ?_, ?_, ?_, fun rom => ?_, ?_⟩
  · have same : ({ start with notices } : Page σ).dealings core clock ops = start.dealings core clock ops :=
      dealings_congr core clock ops rfl rfl
    rw [leaves, same]
  · rw [leaves, begun, List.foldl_append]
  · rw [notes_append, notes_messages, notes_taken core clock ops orderly, silent, List.nil_append]
  · have shown := dealAll_console (start.dealings core clock ops)
      (start.withRig (start.run core clock ops).rig) follows
    rw [run_eq, shown, notes_append, notes_messages, newFaults_mismatch]
    exact congrArg (· ++ _) console
  · rw [loadRom, PageOp.answer_collecting, ← Act.answer_map]
    exact (RigOp.session_performs core _ (.loadRom rom)).accords
  · rw [reset, PageOp.answer_collecting, ← Act.answer_map]
    exact (RigOp.session_performs core _ .reset).accords

/-- A clock that is a second further on with every entry of the world that the core has used up. -/
def passingClock : Clock (List (Option Fault)) where
  now w := .ok (.ofNanos (UInt64.ofNat (1000000000 * (100 - w.length)))) w
  sleep _ := return

/-- A page that carries on after a reset that panicked in a load, and meets the same fault twice. -/
def carriedOn : List PageOp :=
  [.loadRom .empty, .tick, .loadRom .empty, .loadRom .empty, .tick, .pendingNotifications, .tick, .reset]

theorem notices_chronological_carriedOn :
    let jam := some (Fault.failure ⟨["jammed"]⟩)
    let world := [none, some (.panic .other), some (.failure ⟨[]⟩), none, none, none, jam, none, jam, none]
    ∃ start, create Core.faulty none world = .ok start ∧
      notes (start.dealings Core.faulty passingClock (carriedOn ++ [.takeNotifications])) =
        [.message "loaded ROM (0 bytes)", .message "ROM rejected (0 bytes)", .message "loaded ROM (0 bytes)",
          .fault "step fault: jammed", .fault "step fault: jammed", .message "reset"] ∧
      (start.run Core.faulty passingClock carriedOn).console.toList = [.error "step fault: jammed"] := by
  intro jam world
  have created : create Core.faulty none world =
      .ok (configured Core.faulty .standard (.forUnit .frame) world) := rfl
  obtain ⟨-, -, told, shown, -⟩ := notices_chronological Core.faulty passingClock created carriedOn
  refine ⟨_, created, told.trans ?_, shown.trans ?_⟩
  · decide +kernel
  · decide +kernel

end Page

end EmulatorHost
