import EmulatorHost.Proofs.Host.Noted
import EmulatorHost.Proofs.Scheduler.Faults

/-!
# Stopping a host loop

A stop handle is only ever set. Whoever sets it, and between or during whichever deeds of the loop, no later
look at it reads false; and this is all that a loop learns of it. So the results are about any moment of a run
from which on no look reads false.

* `HostLoop.deeds`: all that a run does, each deed written down as it begins.
* `Deed.late`: the callbacks begun since a look last read false; `HostLoop.Ongoing`, `HostLoop.Left`.
* **`HostLoop.notedTurn_ends`**: a turn keeps it; `HostLoop.notedTurns_ends`: so does a run of turns.
* `Scheduler.Inert`: a scheduler whose callbacks do nothing any more.
* **`HostLoop.run_stops`**: after a loop is asked to stop, at most one more callback begins.
-/

namespace EmulatorHost

variable {σ : Type}

/-! ## Deeds -/

namespace Deed

/-- Whether a deed calls back the scheduler. -/
def isCallback : Deed → Bool
  | tick => true
  | refresh _ => true
  | _ => false

/-- What a look at the stop handle read. -/
def asked? : Deed → Option Bool
  | head asked => some asked
  | middle asked => some asked
  | _ => none

/-- Whether a deed begins a turn. -/
def isTurn (d : Deed) : Bool := d == head false

/-- Whether a deed polls for input. -/
def isPoll (d : Deed) : Bool := d == poll

/-- How many callbacks began since a look last read false, if there were `n` before the deed. -/
def since (n : Nat) (d : Deed) : Nat := if d.asked? = some false then 0 else n + d.isCallback.toNat

/-- How many callbacks began since a look last read false. -/
def late (ds : List Deed) : Nat := ds.foldl since 0

/-- The turns begun and the polls made. -/
def effort (ds : List Deed) : Nat := ds.countP isTurn + ds.countP isPoll

theorem late_snoc (ds : List Deed) (d : Deed) : late (ds ++ [d]) = since (late ds) d := by
  rw [late, List.foldl_append]
  rfl

theorem effort_snoc (ds : List Deed) (d : Deed) :
    effort (ds ++ [d]) = effort ds + (d.isTurn.toNat + d.isPoll.toNat) := by
  have bit (p : Deed → Bool) : [d].countP p = (p d).toNat := by
    rw [List.countP_singleton]
    cases p d <;> rfl
  rw [effort, effort, List.countP_append, List.countP_append, bit, bit]
  omega

theorem countP_isCallback_le (front : List Deed) {back : List Deed}
    (asked : ∀ d ∈ back, d.asked? ≠ some false) : back.countP isCallback ≤ late (front ++ back) := by
  induction back using List.reverseRecOn with
  | nil => exact Nat.zero_le _
  | append_singleton back d ih =>
    obtain ⟨before, this⟩ := List.forall_mem_append.mp asked
    rw [← List.append_assoc, late_snoc, since, if_neg (this d List.mem_cons_self), List.countP_append,
      List.countP_singleton]
    have callbacks := ih before
    cases d.isCallback with
    | false => exact callbacks
    | true => exact Nat.succ_le_succ callbacks

end Deed

namespace HostLoop

/-- All deeds are written down, the first one first. -/
def log (d : Deed) (_ : Rig σ) (ds : List Deed) : List Deed := ds ++ [d]

/-- All that a run of the loop does, the first deed first. -/
def deeds (h : HostLoop σ) (fuel : Nat) (r : Rig σ) : List Deed := ((h.notedRun log fuel).after (r, [])).2

/-! ## How far a loop goes on -/

/-- The deeds of a loop under way: no look has read true, at most `n` callbacks have begun since the last
one, and the loop has begun turns and polled `k` times at least. -/
structure Ongoing (n k : Nat) (ds : List Deed) : Prop where
  late : Deed.late ds ≤ n
  free : ∀ d ∈ ds, d.asked? ≠ some true
  effort : k ≤ Deed.effort ds

/-- The deeds of a loop that is left: a look that read true was the last one. -/
structure Left (ds : List Deed) : Prop where
  late : Deed.late ds ≤ 1
  free : ∀ d ∈ ds.dropLast, d.asked? ≠ some true

section Deeds

variable {n k : Nat} {ds : List Deed}

theorem Ongoing.left (going : Ongoing n k ds) (few : n ≤ 1) : Left ds :=
  ⟨going.late.trans few, fun d member => going.free d (List.dropLast_subset _ member)⟩

theorem Ongoing.mono {m j : Nat} (going : Ongoing n k ds) (more : n ≤ m) (less : j ≤ k) : Ongoing m j ds :=
  ⟨going.late.trans more, going.free, less.trans going.effort⟩

/-- One deed more, unless it is a look that reads true. -/
theorem Ongoing.snoc (going : Ongoing n k ds) (d : Deed) (free : d.asked? ≠ some true) :
    Ongoing (Deed.since n d) (k + (d.isTurn.toNat + d.isPoll.toNat)) (ds ++ [d]) where
  late := by
    rw [Deed.late_snoc, Deed.since, Deed.since]
    have late := going.late
    split_ifs
    · exact Nat.le_refl 0
    · exact Nat.add_le_add_right late _
  free e member := by
    rcases List.mem_append.mp member with before | this
    · exact going.free e before
    · rw [List.mem_singleton.mp this]
      exact free
  effort := by
    rw [Deed.effort_snoc]
    exact Nat.add_le_add_right going.effort _

theorem Ongoing.asked (going : Ongoing n k ds) (few : n ≤ 1) {d : Deed} (quiet : d.isCallback = false)
    (reads : d.asked? = some true) : Left (ds ++ [d]) where
  late := by
    rw [Deed.late_snoc, Deed.since, reads, if_neg nofun, quiet]
    exact going.late.trans few
  free e member := by
    rw [List.dropLast_concat] at member
    exact going.free e member

theorem Left.rest_eq_nil (left : Left ds) {front rest : List Deed} {d : Deed} (split : ds = front ++ d :: rest)
    (reads : d.asked? = some true) : rest = [] := by
  by_contra more
  refine left.free d ?_ reads
  rw [split, List.dropLast_append_of_ne_nil (List.cons_ne_nil d rest), List.dropLast_cons_of_ne_nil more]
  exact List.mem_append_right _ List.mem_cons_self

end Deeds

/-- How a turn ends that began at `k`, with fuel for so many polls. -/
def Turned (k fuel : Nat) : Option TurnEnd → List Deed → Prop
  | none, ds => Left ds ∧ k + fuel ≤ Deed.effort ds
  | some (.leave _), ds => Left ds
  | some (.goOn _), ds => Ongoing 1 k ds

section Ends

open Act Act.Ends

variable {α : Type} {n k : Nat} {w : Rig σ × List Deed} {d : Deed} {s : LoopState}

theorem aside_ends (x : Act (Rig σ) α) :
    Ends (x.aside : Act (Rig σ × List Deed) α) w (fun _ v => v.2 = w.2) fun v => v.2 = w.2 :=
  of_after (P := fun v : Rig σ × List Deed => v.2 = w.2) (x.aside_keeps w)

theorem Ongoing.aside (going : Ongoing n k w.2) (few : n ≤ 1) (x : Act (Rig σ) α) :
    Ends (x.aside : Act (Rig σ × List Deed) α) w (fun _ v => Ongoing n k v.2) fun v => Left v.2 :=
  (aside_ends x).imp (fun _ _ same => same ▸ going) fun _ same => same ▸ going.left few

/-- Whatever comes of a deed, it was begun. -/
theorem Ongoing.doing (going : Ongoing n k (w.2 ++ [d])) (few : n ≤ 1) (x : Act (Rig σ) α) :
    Ends (HostLoop.doing log d x) w (fun _ v => Ongoing n k v.2) fun v => Left v.2 :=
  aside (w := (w.1, w.2 ++ [d])) going few x

variable (h : HostLoop σ)

theorem notedLook_ends (going : Ongoing n k w.2) (few : n ≤ 1) (deed : Bool → Deed) :
    Ends (h.notedLook log deed) w (fun asked v => v.2 = w.2 ++ [deed asked]) fun v => Left v.2 := by
  refine andThen ((aside_ends _).imp (fun _ _ => id) fun v same => ?_) fun asked v same => ?_
  · rw [same]
    exact going.left few
  · have written : v.2 ++ [deed asked] = w.2 ++ [deed asked] := by rw [same]
    exact written

theorem notedDrain_ends (fuel : Nat) (going : Ongoing 0 k w.2) :
    Ends (h.notedDrain log fuel) w (fun dry v => Ongoing 0 (if dry then k else k + fuel) v.2)
      fun v => Left v.2 := by
  induction fuel generalizing k w with
  | zero => exact of_pure going
  | succ fuel ih =>
    have polled : Ongoing 0 (k + 1) (w.2 ++ [.poll]) := going.snoc .poll nofun
    refine andThen (polled.doing (Nat.zero_le 1) _) fun found v going => ?_
    cases found with
    | none => exact of_pure (going.mono (Nat.le_refl 0) (Nat.le_succ k))
    | some event =>
      have applied : Ongoing 0 (k + 1) (v.2 ++ [.apply event]) := going.snoc (.apply event) nofun
      refine andThen (applied.doing (Nat.zero_le 1) _) fun _ v going => ?_
      refine (ih going).imp (fun dry v going => going.mono (Nat.le_refl 0) ?_) fun _ => id
      cases dry with
      | true => exact Nat.le_succ k
      | false => exact Nat.le_of_eq (Nat.succ_add_eq_add_succ k fuel).symm

theorem notedTickTurn_ends (going : Ongoing 0 k w.2) :
    Ends (h.notedTickTurn log s) w (fun _ v => Ongoing 1 k v.2) fun v => Left v.2 := by
  have ticked : Ongoing 1 k (w.2 ++ [.tick]) := going.snoc .tick nofun
  refine andThen (ticked.doing (Nat.le_refl 1) _) fun report v going => ?_
  obtain ⟨stepped, delay, fault⟩ := report
  cases delay with
  | none => exact of_pure going
  | some delay =>
    have read : Ongoing 1 k (v.2 ++ [.readClock]) := going.snoc .readClock nofun
    refine andThen (read.doing (Nat.le_refl 1) _) fun now v going => ?_
    exact andThen (going.aside (Nat.le_refl 1) _) fun _ v going => of_pure going

theorem notedTick_ends (fuel : Nat) (now : Duration) (going : Ongoing 0 k w.2) :
    Ends (h.notedTick log fuel now s) w
      (fun o v => match o with
        | none => Left v.2 ∧ k + fuel ≤ Deed.effort v.2
        | some _ => Ongoing 1 k v.2)
      fun v => Left v.2 := by
  have waits : Ongoing 1 k w.2 := going.mono (Nat.zero_le 1) (Nat.le_refl k)
  refine of_ite (fun _ => ?_) fun _ => of_pure waits
  refine andThen (notedDrain_ends h fuel going) fun dry v going => ?_
  cases dry with
  | true => exact of_map (notedTickTurn_ends h going)
  | false => exact of_pure ⟨going.left (Nat.zero_le 1), going.effort⟩

theorem notedShow_ends (now : Duration) (going : Ongoing 0 k w.2) :
    Ends (h.notedShow log now s) w (fun _ v => Ongoing 1 k v.2) fun v => Left v.2 := by
  have waits : Ongoing 1 k w.2 := going.mono (Nat.zero_le 1) (Nat.le_refl k)
  refine of_ite (fun _ => ?_) fun _ => of_pure waits
  have refreshed : Ongoing 1 k (w.2 ++ [.refresh now]) := going.snoc (.refresh now) nofun
  refine andThen (refreshed.doing (Nat.le_refl 1) _) fun report v going => ?_
  exact andThen (going.aside (Nat.le_refl 1) _) fun _ v going => of_pure going

theorem notedWait_ends (going : Ongoing 1 k w.2) :
    Ends (h.notedWait log s) w (fun _ v => Ongoing 1 k v.2) fun v => Left v.2 := by
  have read : Ongoing 1 k (w.2 ++ [.readClock]) := going.snoc .readClock nofun
  refine andThen (read.doing (Nat.le_refl 1) _) fun now v going => of_ite (fun _ => ?_) fun _ => of_pure going
  have slept : Ongoing 1 k (v.2 ++ [.sleep]) := going.snoc .sleep nofun
  exact slept.doing (Nat.le_refl 1) _

/-- **A turn calls back once before its look at the handle, and once after it.** -/
theorem notedTurn_ends (fuel : Nat) (going : Ongoing 0 k w.2) :
    Ends (h.notedTurn log fuel s) w (fun o v => Turned k fuel o v.2) fun v => Left v.2 := by
  have read : Ongoing 0 k (w.2 ++ [.readClock]) := going.snoc .readClock nofun
  refine andThen (read.doing (Nat.zero_le 1) _) fun now v going => ?_
  refine andThen (notedTick_ends h fuel now going) fun ticked v going => ?_
  match ticked with
  | none => exact of_pure going
  | some (.leave stats) => exact of_pure (going.left (Nat.le_refl 1))
  | some (.goOn s) =>
    refine andThen (notedLook_ends h going (Nat.le_refl 1) .middle) fun asked v looked => ?_
    cases asked with
    | true => exact of_pure (looked ▸ going.asked (Nat.le_refl 1) rfl rfl)
    | false =>
      have free : Ongoing 0 k v.2 := looked ▸ going.snoc (.middle false) nofun
      refine andThen (notedShow_ends h now free) fun s v going => ?_
      exact andThen (notedWait_ends h going) fun _ v going => of_pure going

theorem notedTurns_ends (fuel : Nat) (going : Ongoing 1 k w.2) :
    Ends (h.notedTurns log fuel s) w
      (fun o v => Left v.2 ∧ (o = none → k + fuel ≤ Deed.effort v.2)) fun v => Left v.2 := by
  induction fuel generalizing k s w with
  | zero => exact of_pure ⟨going.left (Nat.le_refl 1), fun _ => going.effort⟩
  | succ fuel ih =>
    refine andThen (notedLook_ends h going (Nat.le_refl 1) .head) fun asked v looked => ?_
    cases asked with
    | true => exact of_pure ⟨looked ▸ going.asked (Nat.le_refl 1) rfl rfl, nofun⟩
    | false =>
      have begun : Ongoing 0 (k + 1) v.2 := looked ▸ going.snoc (.head false) nofun
      have count : k + 1 + fuel = k + (fuel + 1) := Nat.succ_add_eq_add_succ k fuel
      refine andThen (notedTurn_ends h fuel begun) fun ended v turned => ?_
      match ended with
      | none => exact of_pure ⟨turned.1, fun _ => count ▸ turned.2⟩
      | some (.leave stats) => exact of_pure ⟨turned, nofun⟩
      | some (.goOn s) =>
        rw [← count]
        exact ih turned

theorem notedRun_ends (fuel : Nat) (r : Rig σ) :
    Ends (h.notedRun log fuel) (r, [])
      (fun o v => Left v.2 ∧ (o = none → fuel ≤ Deed.effort v.2)) fun v => Left v.2 := by
  have fresh : Ongoing 1 0 [] :=
    ⟨Nat.zero_le 1, fun _ member => absurd member List.not_mem_nil, Nat.zero_le _⟩
  have read : Ongoing 1 0 ([] ++ [.readClock]) := fresh.snoc .readClock nofun
  refine andThen (read.doing (Nat.le_refl 1) _) fun start v going => ?_
  refine andThen (notedTurns_ends h fuel going) fun ended v left => ?_
  cases ended with
  | none => exact of_pure ⟨left.1, fun _ => Nat.zero_add fuel ▸ left.2 rfl⟩
  | some stats => exact ⟨left.1, nofun⟩

end Ends

end HostLoop

/-! ## Stopped for good -/

/-- A scheduler that is done. In whatever rig it stands, whatever is done there meanwhile, a tick and a
refresh give the default report and leave everything as it was: the session, the journal and the world of the
core, of the clock and of the renderer. -/
def Scheduler.Inert (s : Scheduler) : Prop :=
  ∀ {τ : Type} (core : Core τ) (m : Machine τ) (ops : List (RigOp τ)) (clock : Clock τ)
      (renderer : Renderer τ),
    let r := Rig.run core ops ⟨m, s⟩
    Scheduler.tick core clock r = .ok ⟨false, none, none⟩ r ∧
      Scheduler.refresh core renderer r = .ok ⟨false, none⟩ r

/-- No operation starts a scheduler again. -/
theorem RigOp.stopped (core : Core σ) (op : RigOp σ) {r : Rig σ} (stopped : r.scheduler.stopped = true) :
    ((op.act core).after r).scheduler.stopped = true := by
  cases op with
  | session op =>
    rw [act, Act.after_map, Rig.onMachine, Act.after_within]
    exact stopped
  | tick clock =>
    rw [act, Act.after_map, Act.after_of_ok (Scheduler.tick_idle core clock stopped)]
    exact stopped
  | refresh renderer =>
    rw [act, Act.after_map, Act.after_of_ok (Scheduler.refresh_idle core renderer (.inl stopped))]
    exact stopped
  | stop => rfl

theorem Scheduler.inert_of_stopped {s : Scheduler} (stopped : s.stopped = true) : s.Inert := by
  intro τ core m ops clock renderer r
  have done : r.scheduler.stopped = true :=
    Rig.run_induction (P := fun r => r.scheduler.stopped = true) (fun op _ => op.stopped core) ops stopped
  exact ⟨Scheduler.tick_idle core clock done, Scheduler.refresh_idle core renderer (.inl done)⟩

namespace HostLoop

variable (h : HostLoop σ) {fuel : Nat} {r q : Rig σ}

theorem run_stopped {stats : LoopStats} (did : h.run fuel r = .ok (some stats) q) :
    q.scheduler.stopped = true := by
  have ended : Act.Ends (h.run fuel) r (fun o v => o.isSome = true → v.scheduler.stopped = true)
      fun _ => True := by
    refine .andThen (.of_ok fun _ _ _ => trivial) fun start v _ => ?_
    refine .andThen (P := fun _ _ => True) (.of_ok fun _ _ _ => trivial) fun o v _ => ?_
    cases o with
    | none => exact .of_pure nofun
    | some stats => exact fun _ => rfl
  rw [Act.Ends, did] at ended
  exact ended rfl

theorem deeds_left (fuel : Nat) (r : Rig σ) : Left (h.deeds fuel r) :=
  ((notedRun_ends h fuel r).imp (fun _ _ => And.left) fun _ => id).leaves

/-- A loop leaves its fuel unused, unless it takes that many turns or polls. -/
theorem run_effort (did : h.run fuel r = .ok none q) : fuel ≤ Deed.effort (h.deeds fuel r) := by
  have answer : (h.notedRun log fuel).answer (r, []) = .ok none :=
    (notedRun_of log h fuel rfl).1.trans (Act.answer_of_ok did)
  have ended := notedRun_ends h fuel r
  rw [Act.Ends, Act.eq_of_answer answer] at ended
  exact ended.2 rfl

/-- **Stopping a host loop.** Writing its deeds down does not change a run. Take any moment of a run from which
on no look at the stop handle reads false. Then at most one more callback begins, a tick or a refresh; the first
look to come is the last thing that the loop does; and the loop is left, unless it goes on polling for input. And a
run that returns leaves a scheduler that does nothing any more. -/
theorem run_stops (fuel : Nat) (r : Rig σ) :
    ((h.notedRun log fuel).answer (r, []) = (h.run fuel).answer r ∧
      ((h.notedRun log fuel).after (r, [])).1 = (h.run fuel).after r) ∧
    (∀ front back, h.deeds fuel r = front ++ back → (∀ d ∈ back, d.asked? ≠ some false) →
      back.countP Deed.isCallback ≤ 1 ∧
      (∀ acts d rest, back = acts ++ d :: rest → d.asked?.isSome = true → rest = []) ∧
      ∀ q, h.run fuel r = .ok none q → fuel ≤ front.countP Deed.isTurn + (front ++ back).countP Deed.isPoll) ∧
    ∀ stats q, h.run fuel r = .ok (some stats) q → q.scheduler.Inert := by
  refine ⟨notedRun_of log h fuel rfl, fun front back split asked => ⟨?_, ?_, ?_⟩, fun stats q did =>
    Scheduler.inert_of_stopped (h.run_stopped did)⟩
  · have late := (h.deeds_left fuel r).late
    rw [split] at late
    exact (Deed.countP_isCallback_le front asked).trans late
  · rintro acts d rest rfl looks
    obtain ⟨read, looked⟩ := Option.isSome_iff_exists.mp looks
    have allowed := asked d (List.mem_append_right acts List.mem_cons_self)
    have reads : d.asked? = some true := by
      cases read with
      | true => exact looked
      | false => exact absurd looked allowed
    exact (h.deeds_left fuel r).rest_eq_nil (split.trans (List.append_assoc front acts (d :: rest)).symm) reads
  · intro q did
    have effort := h.run_effort did
    have none_begun : back.countP Deed.isTurn = 0 := by
      refine List.countP_eq_zero.mpr fun d member begins => asked d member ?_
      rw [of_decide_eq_true begins]
      rfl
    rw [split, Deed.effort, List.countP_append, none_begun] at effort
    exact effort

/-- A loop whose source of input asks it to stop when it is polled. -/
def hurriedLoop : HostLoop Bool where
  core := ⟨return, fun _ => return true, return .ok (), fun _ => return, return .empty, 0, .frame⟩
  clock := Rig.clockAt .zero
  renderer := ⟨fun _ _ _ => return .ok ()⟩
  input := ⟨do
    set true
    return none⟩
  stopRequested := id
  refreshInterval := .ofNanos 16

theorem run_stops_hurriedLoop :
    let start : Rig Bool := ⟨.fresh hurriedLoop.core .packed false, .fresh ⟨.ofNanos 5, .frame⟩⟩
    let front := [.readClock, .head false, .readClock, .poll]
    let back := [.tick, .readClock, .middle true]
    hurriedLoop.deeds 9 start = front ++ back ∧ (∀ d ∈ back, d.asked? ≠ some false) ∧
      back.countP Deed.isCallback ≤ 1 ∧ ∃ q, hurriedLoop.run 9 start = .ok (some ⟨1, 0, 0, 0⟩) q ∧
        q.scheduler.Inert := by
  intro start front back
  have split : hurriedLoop.deeds 9 start = front ++ back := by decide +kernel
  have asked : ∀ d ∈ back, d.asked? ≠ some false := by decide
  have ran : (hurriedLoop.run 9).answer start = .ok (some ⟨1, 0, 0, 0⟩) := by decide +kernel
  have did := Act.eq_of_answer ran
  obtain ⟨-, moment, inert⟩ := run_stops hurriedLoop 9 start
  exact ⟨split, asked, (moment front back split asked).1, _, did, inert _ _ did⟩

end HostLoop

end EmulatorHost
