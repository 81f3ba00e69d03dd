import EmulatorHost.Proofs.Host.Timed
import EmulatorHost.Proofs.Host.Watched
import Mathlib.Data.List.Chain

/-!
# The timing of a host loop

* `Course`: what the timing of a loop depends on; `HostLoop.Punctual`: an account that keeps to it.
* `HostLoop.Beyond`: an account past a tick, and past the pictures until then.
* `HostLoop.Going`, `HostLoop.Armed`: what holds between two turns.
* **`HostLoop.watchedTurn_ends`**: a turn keeps it; `HostLoop.watchedTurns_ends`: so does a run of turns.
* **`HostLoop.watchedTurns_reach`**: the loop gets to every tick, or is asked to stop.
* **`HostLoop.run_punctual`**: ticks are a period apart, and pictures their spacing or a step more.
-/

namespace EmulatorHost

variable {σ : Type}

/-- What the timing of a loop depends on, in nanoseconds, and the steps the session had attempted before. -/
structure Course where
  start : Nat
  interval : Nat
  cost : Nat
  spacing : Nat
  steps : Nat

namespace Course

/-- The time from one tick to the next: the interval, or a step that takes longer. -/
def period (c : Course) : Nat := max c.interval c.cost

/-- When a tick is to begin, counted from zero. -/
def tick (c : Course) (k : Nat) : Nat := c.start + k * c.period

theorem tick_succ (c : Course) (k : Nat) : c.tick (k + 1) = c.tick k + c.period := by
  rw [tick, tick, Nat.succ_mul, Nat.add_assoc]

theorem tick_mono (c : Course) {k l : Nat} (h : k ≤ l) : c.tick k ≤ c.tick l :=
  Nat.add_le_add_left (Nat.mul_le_mul_right _ h) _

/-- When a picture is to be shown at the latest, counted from zero. -/
def latest (c : Course) (k : Nat) : Nat := c.start + k * (c.spacing + c.cost)

theorem latest_succ (c : Course) (k : Nat) : c.latest (k + 1) = c.latest k + (c.spacing + c.cost) := by
  rw [latest, latest, Nat.succ_mul, Nat.add_assoc]

theorem latest_mono (c : Course) {k l : Nat} (h : k ≤ l) : c.latest k ≤ c.latest l :=
  Nat.add_le_add_left (Nat.mul_le_mul_right _ h) _

theorem interval_le_period (c : Course) : c.interval ≤ c.period := Nat.le_max_left ..

theorem cost_le_period (c : Course) : c.cost ≤ c.period := Nat.le_max_right ..

theorem cost_add_rest (c : Course) : c.cost + (c.interval - c.cost) = c.period := by
  unfold period
  omega

end Course

/-- The time of a rig with an account. -/
def Watched.time (part : σ → ManualClock) (w : Watched σ) : Nat := (part w.1.machine.world).now.nanos

theorem Watched.time_of_dwells {part : σ → ManualClock} {r q : Rig σ} (dwells : Rig.Dwells part r q)
    (a : Account σ) : Watched.time part (q, a) = (part r.machine.world).now.nanos := by
  rw [time, dwells.time]

namespace HostLoop

/-- **An account that keeps to its course.** Every tick began on time and attempted one step, the first
refresh was at the start, the next ones were at least the spacing apart, and late by no more than the cost
of a step, and no tick began after the time when one more was to be shown at the latest. -/
structure Punctual (h : HostLoop σ) (c : Course) (ticks : List (Rig σ)) (refreshes : List Duration) :
    Prop where
  onTime (k : Nat) (r : Rig σ) : ticks[k]? = some r →
    (∃ now v, h.clock.now r.machine.world = .ok now v ∧ now.nanos = c.tick k) ∧
      (r.calls h.core [.tick h.clock]).countP Exchange.isStep = 1
  first (t : Duration) : refreshes.head? = some t → t.nanos = c.start
  apart : refreshes.IsChain fun s t =>
    s.nanos + c.spacing ≤ t.nanos ∧ t.nanos ≤ s.nanos + c.spacing + c.cost
  shown (k : Nat) : k < ticks.length → c.tick k ≤ c.latest refreshes.length

/-- An account with more than `K` ticks, and all the pictures that were to be shown by then. -/
structure Beyond (c : Course) (K : Nat) (a : Account σ) : Prop where
  ticks : K < a.ticks.length
  shown : c.tick K ≤ c.latest a.refreshes.length

/-- What holds of a loop under way. -/
structure Going (h : HostLoop σ) (c : Course) (w : Watched σ) : Prop where
  running : w.1.machine.session.isRunning = true
  reachable : w.1.machine.session.Reachable
  steps : w.1.machine.session.steps.toNat = c.steps + w.2.ticks.length
  awake : w.1.scheduler.stopped = false
  interval : w.1.scheduler.cadence.interval.nanos = c.interval
  lastStep (last : Duration) : w.1.scheduler.lastStep = some last →
    last.nanos + c.period = c.tick w.2.ticks.length
  punctual : h.Punctual c w.2.ticks w.2.refreshes

/-- What holds of the timers between two turns: the loop is never late for a tick, and late for a refresh by no
more than the cost of a step. -/
structure Armed (part : σ → ManualClock) (c : Course) (s : LoopState) (w : Watched σ) : Prop where
  nextTick : s.nextTick.nanos = c.tick w.2.ticks.length
  early : w.time part ≤ s.nextTick.nanos
  nextRefresh (last : Duration) : w.2.refreshes.getLast? = some last →
    s.nextRefresh.nanos = last.nanos + c.spacing
  first : w.2.refreshes = [] → s.nextRefresh.nanos = c.start ∧ w.time part = c.start
  late : w.time part ≤ s.nextRefresh.nanos + c.cost

section Account

variable {h : HostLoop σ} {c : Course} {w v : Watched σ} {K n : Nat}

theorem Beyond.grows (beyond : Beyond c K w.2) (grows : Grows n w v) : Beyond c K v.2 :=
  ⟨Nat.lt_of_lt_of_le beyond.ticks grows.ticks.length_le,
    beyond.shown.trans (c.latest_mono grows.refreshes.length_le)⟩

theorem Punctual.beyond (p : h.Punctual c w.2.ticks w.2.refreshes) (many : K < w.2.ticks.length) : Beyond c K w.2 :=
  ⟨many, p.shown K many⟩

theorem ends_of_beyond {α : Type} {x : Act (Watched σ) α} {Q : α → Watched σ → Prop} {E : Watched σ → Prop}
    (moves : Act.Moves (Grows n) x) (beyond : Beyond c K w.2) :
    Act.Ends x w (fun a v => Beyond c K v.2 ∨ Q a v) fun v => Beyond c K v.2 ∨ E v :=
  (Act.Ends.of_moves moves).imp (fun _ _ grows => .inl (beyond.grows grows))
    fun _ grows => .inl (beyond.grows grows)

theorem Punctual.tick {ticks : List (Rig σ)} {refreshes : List Duration} (p : h.Punctual c ticks refreshes)
    {r : Rig σ} (begun : ∃ now v, h.clock.now r.machine.world = .ok now v ∧ now.nanos = c.tick ticks.length)
    (once : (r.calls h.core [.tick h.clock]).countP Exchange.isStep = 1)
    (soon : c.tick ticks.length ≤ c.latest refreshes.length) : h.Punctual c (ticks ++ [r]) refreshes where
  onTime k q at_k := by
    rcases Nat.lt_trichotomy k ticks.length with before | rfl | after
    · rw [List.getElem?_append_left before] at at_k
      exact p.onTime k q at_k
    · rw [List.getElem?_concat_length] at at_k
      cases at_k
      exact ⟨begun, once⟩
    · rw [List.getElem?_eq_none (by rw [List.length_append, List.length_singleton]; omega)] at at_k
      cases at_k
  first := p.first
  apart := p.apart
  shown k many := by
    rw [List.length_append, List.length_singleton] at many
    exact (c.tick_mono (Nat.le_of_lt_succ many)).trans soon

theorem Punctual.refresh {ticks : List (Rig σ)} {refreshes : List Duration} (p : h.Punctual c ticks refreshes)
    {now : Duration} (first : refreshes = [] → now.nanos = c.start)
    (apart : ∀ last, refreshes.getLast? = some last →
      last.nanos + c.spacing ≤ now.nanos ∧ now.nanos ≤ last.nanos + c.spacing + c.cost) :
    h.Punctual c ticks (refreshes ++ [now]) where
  onTime := p.onTime
  first t ht := by
    cases refreshes with
    | nil =>
      cases ht
      exact first rfl
    | cons s refreshes => exact p.first t ht
  apart := by
    refine List.isChain_append.mpr ⟨p.apart, .singleton _, fun last hlast next hnext => ?_⟩
    obtain rfl : now = next := by simpa using hnext
    exact apart last hlast
  shown k many := by
    rw [List.length_append, List.length_singleton]
    exact (p.shown k many).trans (c.latest_mono (Nat.le_succ _))

/-- The last refresh was so early that the next one is not late. -/
theorem Punctual.last_le {ticks : List (Rig σ)} {refreshes : List Duration} (p : h.Punctual c ticks refreshes)
    {last : Duration} (is_last : refreshes.getLast? = some last) :
    last.nanos + c.spacing + c.cost ≤ c.latest refreshes.length := by
  have first := p.first
  have apart := p.apart
  clear p
  induction refreshes using List.reverseRecOn generalizing last with
  | nil => cases is_last
  | append_singleton before t ih =>
    obtain rfl : t = last := by simpa using is_last
    rw [List.length_append, List.length_singleton, c.latest_succ]
    obtain ⟨chain, -, link⟩ := List.isChain_append.mp apart
    cases previous : before.getLast? with
    | none =>
      obtain rfl : before = [] := List.getLast?_eq_none_iff.mp previous
      have start : t.nanos = c.start := first t rfl
      rw [start, List.length_nil, Course.latest]
      omega
    | some s =>
      have early := ih previous (fun t ht => first t (by rw [List.head?_append, ht]; rfl)) chain
      have late := (link s previous t rfl).2
      omega

/-- Between two turns it is not too late for the next picture. -/
theorem Armed.time_le {part : σ → ManualClock} {s : LoopState} (armed : Armed part c s w)
    (p : h.Punctual c w.2.ticks w.2.refreshes) : w.time part ≤ c.latest w.2.refreshes.length := by
  cases is_last : w.2.refreshes.getLast? with
  | none =>
    have none : w.2.refreshes = [] := List.getLast?_eq_none_iff.mp is_last
    rw [(armed.first none).2]
    exact Nat.le_add_right ..
  | some last =>
    have early := p.last_le is_last
    have next := armed.nextRefresh last is_last
    have late := armed.late
    omega

theorem Going.idles {q : Rig σ} (going : h.Going c w) (idles : Rig.Idles w.1 q) :
    h.Going c (q, w.2) where
  running := by
    unfold Session.isRunning
    rw [idles.phase]
    exact going.running
  reachable := idles.reachable going.reachable
  steps := by rw [idles.steps, going.steps]
  awake := idles.stopped.trans going.awake
  interval := by rw [idles.cadence, going.interval]
  lastStep last is_last := going.lastStep last (idles.lastStep ▸ is_last)
  punctual := going.punctual

end Account

/-- The input of a rig does not run dry within `fuel` polls. -/
def Undry (h : HostLoop σ) (fuel : Nat) (r : Rig σ) : Prop := ∀ q, h.drain fuel r ≠ .ok true q

/-- From the account `w` with the timers `s`, a turn got past its tick, to `w'` and `s'`. -/
structure Past (h : HostLoop σ) (part : σ → ManualClock) (c : Course) (s s' : LoopState) (w w' : Watched σ) :
    Prop where
  going : h.Going c w'
  refreshes : w'.2.refreshes = w.2.refreshes
  nextRefresh : s'.nextRefresh = s.nextRefresh
  nextTick : s'.nextTick.nanos = c.tick w'.2.ticks.length
  early : w'.time part ≤ s'.nextTick.nanos
  cost : w'.time part ≤ w.time part + c.cost
  /-- It ticked, or it is waiting for the same tick and no time has passed. -/
  moved : w'.2.ticks.length = w.2.ticks.length + 1 ∧ w.time part ≤ w'.time part ∧
      s'.nextTick.nanos = w.time part + c.period ∨
    w'.2.ticks.length = w.2.ticks.length ∧ w'.time part = w.time part ∧ w.time part < s'.nextTick.nanos

/-- What is left to do until there are more than `K` ticks: periods, and time until the next tick. -/
def toGo (part : σ → ManualClock) (c : Course) (K : Nat) (s : LoopState) (w : Watched σ) : Nat :=
  (K - w.2.ticks.length) * (c.period + 1) + (s.nextTick.nanos - w.time part)

section Turn

open Act Act.Ends

variable {h : HostLoop σ} {part : σ → ManualClock} {put : ManualClock → σ → σ} {cost : Duration}
  {c : Course} {w : Watched σ} {s : LoopState} {K : Nat}

variable (timed : h.Timed part put cost) (costs : c.cost = cost.nanos)

include timed costs

theorem tickTurn_ends (going : h.Going c w) (now : w.time part = c.tick w.2.ticks.length)
    (soon : c.tick w.2.ticks.length ≤ c.latest w.2.refreshes.length)
    (fits : c.tick (w.2.ticks.length + 1) < Duration.limit)
    (room : c.steps + (w.2.ticks.length + 1) < UInt64.size) :
    Ends (some <$> doing Account.note .tick (h.tickTurn s)) w
      (fun o v => ∃ s', o = some (.goOn s') ∧ h.Past part c s s' w v) fun _ => False := by
  have running := going.running
  have interval : w.1.scheduler.cadence.interval.nanos = c.interval := going.interval
  have period : cost.nanos + (w.1.scheduler.cadence.interval.nanos - cost.nanos) = c.period := by
    rw [interval, ← costs, c.cost_add_rest]
  have due : w.1.scheduler.isDue (part w.1.machine.world).now = true := by
    unfold Scheduler.isDue
    split
    · rfl
    · rename_i last is_last
      have before := going.lastStep last is_last
      have long := c.interval_le_period
      refine decide_eq_true ?_
      rw [Duration.le_def, Duration.sub_nanos, interval]
      change _ ≤ w.time part - _
      omega
  have room' : w.1.machine.session.steps.toNat + 1 < UInt64.size := by
    rw [going.steps]
    omega
  have fits' : (part w.1.machine.world).now.nanos +
      (cost.nanos + (w.1.scheduler.cadence.interval.nanos - cost.nanos)) < Duration.limit := by
    rw [period]
    rw [c.tick_succ] at fits
    change w.time part + _ < _
    omega
  obtain ⟨once, -⟩ := timed.tick_due running going.reachable going.awake due room' (by omega)
  obtain ⟨s', q, turn, ticked, next, refresh⟩ :=
    timed.tickTurn_due running going.reachable going.awake due room' fits' s
  rw [period] at next
  refine of_map (doing_ends _ (of_aside ?_))
  rw [Ends, turn]
  have length : ((q, w.2.note .tick w.1) : Watched σ).2.ticks.length = w.2.ticks.length + 1 := List.length_append
  have time : (part q.machine.world).now.nanos = w.time part + c.cost := by rw [ticked.time, costs]; rfl
  have begun : ∃ now v, h.clock.now w.1.machine.world = .ok now v ∧ now.nanos = c.tick w.2.ticks.length :=
    ⟨_, _, timed.now_apply _, now⟩
  have going' : h.Going c (q, w.2.note .tick w.1) := by
    refine ⟨?_, ticked.reachable, ?_, ticked.stopped, ?_, fun last is_last => ?_, ?_⟩
    · unfold Session.isRunning
      rw [ticked.phase]
      exact running
    · rw [ticked.steps, going.steps, length, Nat.add_assoc]
    · rw [ticked.cadence, interval]
    · rw [ticked.lastStep] at is_last
      cases is_last
      rw [length, c.tick_succ, ← now]
      rfl
    · exact going.punctual.tick begun once soon
  refine ⟨s', rfl, going', rfl, refresh, ?_, ?_, ?_, .inl ⟨length, ?_, next⟩⟩
  · rw [length, c.tick_succ, ← now]
    exact next
  · have short := c.cost_le_period
    change (part q.machine.world).now.nanos ≤ _
    change s'.nextTick.nanos = w.time part + c.period at next
    omega
  · exact Nat.le_of_eq time
  · change _ ≤ (part q.machine.world).now.nanos
    omega

/-- A tick that is due is on time. The account keeps to its course, whatever ends the turn, or goes beyond
`K`. -/
theorem watchedTick_ends (fits : c.tick K < Duration.limit) (room : c.steps + K < UInt64.size)
    (going : h.Going c w) (armed : Armed part c s w) {now : Duration} (reads : now.nanos = w.time part)
    (fuel : Nat) :
    Ends (h.notedTick Account.note fuel now s) w
      (fun o v => Beyond c K v.2 ∨ match o with
        | none => h.Punctual c v.2.ticks v.2.refreshes ∧ h.Undry fuel w.1
        | some (.leave _) => False
        | some (.goOn s') => h.Past part c s s' w v)
      fun v => Beyond c K v.2 ∨ h.Punctual c v.2.ticks v.2.refreshes ∧ h.Undry fuel w.1 := by
  unfold notedTick
  rw [notedDrain_account, notedTickTurn_account]
  refine of_ite (fun due => ?_) fun waits => ?_
  · have due : s.nextTick.nanos ≤ now.nanos := due
    -- the drain, with what it comes to and what it leaves alone
    have drained : Ends (h.drain fuel).aside w
        (fun b v => ∃ q, v = (q, w.2) ∧ h.drain fuel w.1 = .ok b q ∧ Rig.Dwells part w.1 q)
        fun v => ∃ q, v = (q, w.2) ∧ ∃ p, h.drain fuel w.1 = .error p q := by
      refine of_aside ?_
      have dwells := timed.drain_dwells fuel w.1
      unfold Act.Ends Act.after at *
      cases hd : h.drain fuel w.1 <;> rw [hd] at dwells
      · exact ⟨_, rfl, rfl, dwells⟩
      · exact ⟨_, rfl, _, rfl⟩
    refine andThen (drained.imp (fun _ _ => id) ?_) fun b v hv => ?_
    · rintro v ⟨q, rfl, p, broken⟩
      exact .inr ⟨going.punctual, fun q' dry => by cases broken.symm.trans dry⟩
    obtain ⟨q, rfl, ran, dwells⟩ := hv
    cases b with
    | false =>
      rw [if_neg nofun]
      exact of_pure (.inr ⟨going.punctual, fun q' dry => by cases ran.symm.trans dry⟩)
    | true =>
      rw [if_pos rfl]
      have going' : h.Going c (q, w.2) := going.idles dwells.toIdles
      have time : Watched.time part (q, w.2) = w.time part := Watched.time_of_dwells dwells _
      have onTime : Watched.time part (q, w.2) = c.tick w.2.ticks.length := by
        have early := armed.early
        have next := armed.nextTick
        omega
      have length : (w.2.ticks ++ [q]).length = w.2.ticks.length + 1 := by simp
      have soon : c.tick w.2.ticks.length ≤ c.latest w.2.refreshes.length := by
        rw [← onTime, time]
        exact armed.time_le going.punctual
      by_cases many : K < w.2.ticks.length + 1
      · refine of_map (doing_ends _ (ends_of_beyond (.of_aside _) ⟨Nat.lt_of_lt_of_eq many length.symm, ?_⟩))
        exact (c.tick_mono (Nat.le_of_lt_succ many)).trans soon
      · have before := c.tick_mono (Nat.le_of_not_lt many)
        have fits' : c.tick (w.2.ticks.length + 1) < Duration.limit := by omega
        have room' : c.steps + (w.2.ticks.length + 1) < UInt64.size := by omega
        refine (tickTurn_ends timed costs going' onTime soon fits' room').imp ?_ fun _ => False.elim
        rintro o v ⟨s', rfl, past⟩
        refine .inr ⟨past.going, past.refreshes, past.nextRefresh, past.nextTick, past.early, ?_, ?_⟩
        · exact time ▸ past.cost
        · exact time ▸ past.moved
  · have waits : ¬ s.nextTick.nanos ≤ now.nanos := waits
    have still : w.time part < s.nextTick.nanos := by omega
    exact of_pure (.inr ⟨going, rfl, rfl, armed.nextTick, armed.early, Nat.le_add_right ..,
      .inr ⟨rfl, rfl, still⟩⟩)

omit costs in
theorem watchedShow_ends (spaces : c.spacing = h.refreshInterval.nanos) (armed : Armed part c s w)
    {now : Duration} (reads : now.nanos = w.time part) {s' : LoopState} {w' : Watched σ}
    (past : h.Past part c s s' w w') :
    Ends (h.notedShow Account.note now s') w'
      (fun s'' (v : Watched σ) => h.Going c v ∧ v.2.ticks = w'.2.ticks ∧ v.time part = w'.time part ∧
        s''.nextTick = s'.nextTick ∧ v.2.refreshes ≠ [] ∧
        (∀ last, v.2.refreshes.getLast? = some last → s''.nextRefresh.nanos = last.nanos + c.spacing) ∧
        v.time part ≤ s''.nextRefresh.nanos + c.cost ∧ (0 < c.spacing → w.time part < s''.nextRefresh.nanos))
      fun v => h.Punctual c v.2.ticks v.2.refreshes ∧ Duration.limit ≤ w.time part + c.spacing := by
  have slow := past.cost
  have same := past.nextRefresh
  rw [notedShow_account]
  by_cases due : s'.nextRefresh ≤ now
  · have due' : s.nextRefresh.nanos ≤ w.time part := by
      rw [← reads, ← same]
      exact due
    have punctual : h.Punctual c w'.2.ticks (w'.2.refreshes ++ [now]) := by
      refine past.going.punctual.refresh (fun none => ?_) fun last is_last => ?_
      · rw [past.refreshes] at none
        rw [reads, (armed.first none).2]
      · rw [past.refreshes] at is_last
        have next := armed.nextRefresh last is_last
        have late := armed.late
        omega
    rw [if_pos due]
    refine doing_ends _ (of_aside ?_)
    unfold showIfDue
    rw [if_pos due]
    have returns := (Rig.refresh_returns h.core h.renderer w'.1).and_moves timed.refresh_dwells
    refine andThen (returns.imp (fun _ _ h => h.2) fun _ h => h.1.elim) fun report q dwells => ?_
    refine andThen (P := fun t v => v = q ∧ t.nanos = now.nanos + c.spacing) (of_ofExcept ?_ ?_) ?_
    · intro t sum
      refine ⟨rfl, ?_⟩
      unfold Duration.after at sum
      split at sum
      · cases sum
        rw [spaces]
        exact Duration.add?_eq_some_iff.mp ‹_›
      · cases sum
    · intro p overflow
      unfold Duration.after at overflow
      split at overflow
      · cases overflow
      · refine ⟨punctual, ?_⟩
        rw [← reads, spaces]
        exact Duration.add?_eq_none_iff.mp ‹_›
    · rintro t v ⟨rfl, next⟩
      have time : Watched.time part (v, w'.2.note (.refresh now) w'.1) = w'.time part :=
        Watched.time_of_dwells dwells _
      have going : h.Going c (w'.1, w'.2.note (.refresh now) w'.1) := { past.going with punctual }
      have shown : w'.2.refreshes ++ [now] ≠ [] := List.append_ne_nil_of_right_ne_nil _ (List.cons_ne_nil _ _)
      refine of_pure ⟨going.idles dwells.toIdles, rfl, time, rfl, shown, fun last is_last => ?_, ?_, ?_⟩
      · change (w'.2.refreshes ++ [now]).getLast? = _ at is_last
        rw [List.getLast?_concat] at is_last
        cases is_last
        exact next
      · dsimp only
        omega
      · dsimp only
        omega
  · have waits : w.time part < s.nextRefresh.nanos := by
      rw [← reads, ← same]
      exact Nat.lt_of_not_le due
    rw [if_neg due]
    refine of_pure ⟨past.going, rfl, rfl, rfl, fun none => ?_, fun last is_last => ?_, ?_, ?_⟩
    · rw [past.refreshes] at none
      obtain ⟨next, time⟩ := armed.first none
      omega
    · rw [past.refreshes] at is_last
      rw [same]
      exact armed.nextRefresh last is_last
    · rw [same]
      omega
    · intro _
      rw [same]
      exact waits

omit costs in
theorem wait_ends (w : Watched σ) (s : LoopState) :
    Ends (h.wait s).aside w
      (fun _ (v : Watched σ) => ∃ q, v = (q, w.2) ∧ Rig.Idles w.1 q ∧
        v.time part = max (w.time part) (min s.nextTick.nanos s.nextRefresh.nanos)) fun _ => False := by
  obtain ⟨q, read, dwells⟩ := timed.reading w.1
  have earlier : (s.nextTick.min s.nextRefresh).nanos = min s.nextTick.nanos s.nextRefresh.nanos := by
    unfold Duration.min
    split_ifs with le
    · have le : s.nextTick.nanos ≤ s.nextRefresh.nanos := le
      omega
    · have le : ¬ s.nextTick.nanos ≤ s.nextRefresh.nanos := le
      omega
  refine of_aside ?_
  unfold wait
  refine andThen (P := fun now v => now = (part w.1.machine.world).now ∧ v = q) ?_ ?_
  · rw [Ends, read]
    exact ⟨rfl, rfl⟩
  · rintro now v ⟨rfl, rfl⟩
    refine of_ite (fun sleeps => ?_) fun wakes => ?_
    · have sleeps : w.time part < (s.nextTick.min s.nextRefresh).nanos := sleeps
      have fits : (part v.machine.world).now.add?
          (s.nextTick.min s.nextRefresh - (part w.1.machine.world).now) =
            some (s.nextTick.min s.nextRefresh) := by
        rw [Duration.add?_eq_some_iff, dwells.time, Duration.sub_nanos]
        change _ = w.time part + (_ - w.time part)
        omega
      obtain ⟨u, slept, now⟩ := timed.sleep_apply fits
      rw [Ends, Rig.call_apply, slept]
      refine ⟨_, rfl, dwells.toIdles.trans (.of_emulation (f := fun _ => ()) rfl), ?_⟩
      unfold Watched.time
      rw [Rig.inWorld_world, now, ← earlier]
      change _ = max (w.time part) _
      omega
    · have wakes : ¬ w.time part < (s.nextTick.min s.nextRefresh).nanos := wakes
      refine of_pure ⟨v, rfl, dwells.toIdles, ?_⟩
      rw [← earlier]
      change (part v.machine.world).now.nanos = _
      rw [dwells.time]
      change w.time part = _
      omega

omit timed costs in
/-- A turn that ticks, or passes some time, leaves less to do. -/
theorem Past.toGo_lt {s' s'' : LoopState} {w' v : Watched σ} (past : h.Past part c s s' w w')
    (armed : Armed part c s w) (few : v.2.ticks.length ≤ K) (ticks : v.2.ticks = w'.2.ticks)
    (next : s''.nextTick = s'.nextTick)
    (time : v.time part = max (w'.time part) (min s''.nextTick.nanos s''.nextRefresh.nanos))
    (later : w.time part < s''.nextRefresh.nanos) : toGo part c K s'' v < toGo part c K s w := by
  unfold toGo
  rw [ticks] at few
  rw [ticks, next]
  rw [next] at time
  rcases past.moved with ⟨more, forward, period⟩ | ⟨same, still, waits⟩
  · have left : K - w.2.ticks.length = (K - w'.2.ticks.length) + 1 := by omega
    rw [left, Nat.succ_mul]
    omega
  · have before := armed.nextTick
    have after := past.nextTick
    rw [same] at after
    rw [same]
    omega

/-- **A turn keeps a loop going and its account on course**, until it goes beyond `K`. It fails only
where the input does not run dry, or the next refresh would be past the end of all time. It leaves the loop only
when asked to. -/
theorem watchedTurn_ends (spaces : c.spacing = h.refreshInterval.nanos) (fits : c.tick K < Duration.limit)
    (room : c.steps + K < UInt64.size) (going : h.Going c w) (armed : Armed part c s w)
    (few : w.2.ticks.length ≤ K) (fuel : Nat) :
    Ends (h.notedTurn Account.note fuel s) w
      (fun o v => Beyond c K v.2 ∨ match o with
        | none => h.Punctual c v.2.ticks v.2.refreshes ∧ h.Undry fuel ((Rig.call h.clock.now).after w.1)
        | some (.leave _) => h.Punctual c v.2.ticks v.2.refreshes ∧ h.stopRequested v.1.machine.world = true
        | some (.goOn s') => h.Going c v ∧ Armed part c s' v ∧
            (0 < c.spacing → toGo part c K s' v < toGo part c K s w))
      fun v => Beyond c K v.2 ∨ h.Punctual c v.2.ticks v.2.refreshes ∧
        (h.Undry fuel ((Rig.call h.clock.now).after w.1) ∨ Duration.limit ≤ c.tick K + c.spacing) := by
  obtain ⟨q, read, dwells⟩ := timed.reading w.1
  rw [after_of_ok read]
  have time : Watched.time part (q, w.2) = w.time part := Watched.time_of_dwells dwells _
  have going₁ : h.Going c (q, w.2) := going.idles dwells.toIdles
  have armed₁ : Armed part c s (q, w.2) :=
    ⟨armed.nextTick, time ▸ armed.early, armed.nextRefresh, fun none => time ▸ armed.first none,
      time ▸ armed.late⟩
  have soon : w.time part ≤ c.tick K :=
    (armed.early.trans (Nat.le_of_eq armed.nextTick)).trans (c.tick_mono few)
  unfold notedTurn
  rw [doing_quiet _ fun _ _ => rfl]
  refine andThen (P := fun now v => now = (part w.1.machine.world).now ∧ v = (q, w.2))
    (of_aside (by rw [Ends, read]; exact ⟨rfl, rfl⟩)) ?_
  rintro now v ⟨rfl, rfl⟩
  refine andThen ((watchedTick_ends timed costs fits room going₁ armed₁ time.symm fuel).imp (fun _ _ => id)
    fun v => Or.imp_right (And.imp_right Or.inl)) fun o v ended => ?_
  rcases ended with beyond | ended
  · exact ends_of_beyond (h.tallies_grows.rest _ o) beyond
  cases o with
  | none => exact of_pure (.inr ended)
  | some turned =>
  cases turned with
  | leave stats => exact ended.elim
  | goOn s' =>
    have past : h.Past part c s s' (q, w.2) v := ended
    unfold notedRest
    rw [notedLook_account _ fun _ _ _ => rfl]
    refine andThen (P := fun asked u => u = v ∧ asked = h.stopRequested v.1.machine.world)
      (of_aside ⟨rfl, rfl⟩) ?_
    rintro asked u ⟨rfl, answer⟩
    refine of_ite (fun yes => of_pure (.inr ⟨past.going.punctual, answer ▸ yes⟩)) fun _ => ?_
    refine andThen ((watchedShow_ends timed spaces armed₁ time.symm past).imp (fun _ _ => id) ?_) ?_
    · rintro v ⟨punctual, overflow⟩
      refine .inr ⟨punctual, .inr ?_⟩
      omega
    rintro s'' v ⟨going, ticks, time₂, next, some, spaced, late, later⟩
    rw [notedWait_account]
    refine andThen ((wait_ends timed v s'').imp (fun _ _ => id) fun _ => False.elim) ?_
    rintro - v' ⟨p, rfl, idles, waited⟩
    have early := past.early
    rw [time₂] at waited late
    by_cases many : K < v.2.ticks.length
    · exact of_pure (.inl ⟨many, going.punctual.shown K many⟩)
    refine of_pure (.inr ⟨going.idles idles, ⟨?_, ?_, spaced, fun none => absurd none some, ?_⟩,
      fun positive => ?_⟩)
    · change s''.nextTick.nanos = c.tick v.2.ticks.length
      rw [next, ticks]
      exact past.nextTick
    · rw [waited, next]
      omega
    · rw [waited]
      omega
    · have shorter := past.toGo_lt armed₁ (v := (p, v.2)) (Nat.le_of_not_lt many) ticks next waited
        (later positive)
      rw [toGo, toGo, time] at *
      exact shorter

/-- **Turn after turn the account keeps to its course**, until it goes beyond `K`. -/
theorem watchedTurns_ends (spaces : c.spacing = h.refreshInterval.nanos) (fits : c.tick K < Duration.limit)
    (room : c.steps + K < UInt64.size) (fuel : Nat) (s : LoopState) (w : Watched σ)
    (start : Beyond c K w.2 ∨ h.Going c w ∧ Armed part c s w) :
    Ends (h.notedTurns Account.note fuel s) w (fun _ v => Beyond c K v.2 ∨ h.Punctual c v.2.ticks v.2.refreshes)
      fun v => Beyond c K v.2 ∨ h.Punctual c v.2.ticks v.2.refreshes := by
  induction fuel generalizing s w with
  | zero => exact of_pure (start.imp id fun start => start.1.punctual)
  | succ fuel ih =>
    rcases start with beyond | ⟨going, armed⟩
    · exact ends_of_beyond (h.tallies_grows.turns _ s) beyond
    by_cases many : K < w.2.ticks.length
    · exact ends_of_beyond (h.tallies_grows.turns _ s) (going.punctual.beyond many)
    unfold notedTurns
    rw [notedLook_account _ fun _ _ _ => rfl]
    refine andThen (P := fun _ u => u = w) (of_aside rfl) fun asked u same => ?_
    subst same
    refine of_ite (fun _ => of_pure (.inr going.punctual)) fun _ => ?_
    have turn := watchedTurn_ends timed costs spaces fits room going armed (Nat.le_of_not_lt many) fuel
    refine andThen (turn.imp (fun _ _ => id) fun v => Or.imp_right And.left) fun o v ended => ?_
    cases o with
    | none => exact of_pure (ended.imp id And.left)
    | some turned =>
      cases turned with
      | leave stats => exact of_pure (ended.imp id And.left)
      | goOn s' => exact ih s' v (ended.imp id fun goes => ⟨goes.1, goes.2.1⟩)

/-- The input always runs dry, whatever the session. -/
def RunsDry (h : HostLoop σ) : Prop :=
  ∀ r : Rig σ, r.machine.session.isRunning = true → r.machine.session.Reachable →
    ∃ n q, h.drain n r = .ok true q

/-- From the account `w` with the timers `s`, the loop goes beyond `K`, or is asked to stop. -/
def Reaches (h : HostLoop σ) (c : Course) (K : Nat) (s : LoopState) (w : Watched σ) (fuel : Nat) : Prop :=
  Act.Ends (h.notedTurns Account.note fuel s) w
    (fun o v => Beyond c K v.2 ∨ o.isSome = true ∧ h.stopRequested v.1.machine.world = true)
    fun v => Beyond c K v.2

/-- **A loop gets to every tick, and to the pictures until then**, given enough fuel, unless it is asked to
stop. -/
theorem watchedTurns_reach (spaces : c.spacing = h.refreshInterval.nanos) (positive : 0 < c.spacing)
    (dry : h.RunsDry) (fits : c.tick K + c.spacing < Duration.limit) (room : c.steps + K < UInt64.size)
    (s : LoopState) (w : Watched σ) (going : h.Going c w) (armed : Armed part c s w)
    (few : w.2.ticks.length ≤ K) : ∃ enough, ∀ fuel, enough ≤ fuel → h.Reaches c K s w fuel := by
  -- every turn leaves less to do
  induction left : toGo part c K s w using Nat.strong_induction_on generalizing s w with
  | _ left ih =>
  subst left
  by_cases asked : h.stopRequested w.1.machine.world = true
  · refine ⟨1, fun fuel enough => ?_⟩
    obtain ⟨fuel, rfl⟩ := Nat.exists_eq_add_of_le' enough
    rw [Reaches, Ends, h.watchedTurns_apply, if_pos asked]
    exact .inr ⟨rfl, asked⟩
  have idles : h.Going c ((Rig.call h.clock.now).after w.1, w.2) := by
    obtain ⟨q, read, dwells⟩ := timed.reading w.1
    rw [after_of_ok read]
    exact going.idles dwells.toIdles
  obtain ⟨n, q, dry⟩ := dry _ idles.running idles.reachable
  have undry : ¬ h.Undry n ((Rig.call h.clock.now).after w.1) := fun undry => undry q dry
  have turn := watchedTurn_ends timed costs spaces (Nat.lt_of_le_of_lt (Nat.le_add_right ..) fits) room going
    armed few n
  suffices reached : ∃ enough, ∀ fuel, n ≤ fuel → enough ≤ fuel → h.Reaches c K s w (fuel + 1) by
    obtain ⟨enough, reached⟩ := reached
    refine ⟨max n enough + 1, fun fuel more => ?_⟩
    obtain ⟨fuel, rfl⟩ := Nat.exists_eq_add_of_le' (Nat.le_trans (Nat.succ_le_succ (Nat.zero_le _)) more)
    exact reached fuel (by omega) (by omega)
  unfold Reaches
  unfold Ends at turn ⊢
  cases ended : h.notedTurn Account.note n s w with
  | error p v =>
    rw [ended] at turn
    refine ⟨0, fun fuel enough _ => ?_⟩
    rw [h.watchedTurns_apply, if_neg asked, h.watchedTurn_mono dry enough, ended]
    exact turn.resolve_right fun fault => fault.2.elim undry (Nat.not_le_of_lt fits)
  | ok o v =>
    rw [ended] at turn
    cases o with
    | none =>
      refine ⟨0, fun fuel enough _ => ?_⟩
      rw [h.watchedTurns_apply, if_neg asked, h.watchedTurn_mono dry enough, ended]
      exact .inl (turn.resolve_right fun wet => undry wet.2)
    | some turned =>
    cases turned with
    | leave stats =>
      refine ⟨0, fun fuel enough _ => ?_⟩
      rw [h.watchedTurns_apply, if_neg asked, h.watchedTurn_mono dry enough, ended]
      exact turn.imp id fun asked => ⟨rfl, asked.2⟩
    | goOn s' =>
      have goesOn {fuel : Nat} (enough : n ≤ fuel) :
          h.notedTurns Account.note (fuel + 1) s w = h.notedTurns Account.note fuel s' v := by
        rw [h.watchedTurns_apply, if_neg asked, h.watchedTurn_mono dry enough, ended]
      have stays (beyond : Beyond c K v.2) (fuel : Nat) : h.Reaches c K s' v fuel :=
        (of_moves (h.tallies_grows.turns fuel s')).imp (fun _ _ grows => .inl (beyond.grows grows))
          fun _ grows => beyond.grows grows
      rcases turn with beyond | ⟨going, armed, shorter⟩
      · refine ⟨0, fun fuel enough _ => ?_⟩
        rw [goesOn enough]
        exact stays beyond fuel
      by_cases many : K < v.2.ticks.length
      · refine ⟨0, fun fuel enough _ => ?_⟩
        rw [goesOn enough]
        exact stays (going.punctual.beyond many) fuel
      · obtain ⟨enough, reach⟩ := ih _ (shorter positive) s' v going armed (Nat.le_of_not_lt many) rfl
        refine ⟨enough, fun fuel more least => ?_⟩
        rw [goesOn more]
        exact reach fuel least

end Turn

/-! ## Runs -/

theorem account_ticks_le (h : HostLoop σ) (fuel : Nat) (r : Rig σ) :
    (h.account fuel r).ticks.length ≤ fuel := by
  have grows := (h.tallies_grows.run fuel r.watched).2
  rwa [show r.watched.2.ticks = [] from rfl, List.length_nil, Nat.zero_add] at grows

/-- The course of a loop from a rig on. -/
def course (h : HostLoop σ) (part : σ → ManualClock) (cost : Duration) (r : Rig σ) : Course where
  start := (part r.machine.world).now.nanos
  interval := r.scheduler.cadence.interval.nanos
  cost := cost.nanos
  spacing := h.refreshInterval.nanos
  steps := r.machine.session.steps.toNat

section Run

variable {h : HostLoop σ} {part : σ → ManualClock} {put : ManualClock → σ → σ} {cost : Duration}

theorem going_start {m : Machine σ} {cadence : Cadence} (running : m.session.isRunning = true)
    (reachable : m.session.Reachable) {q : Rig σ} (dwells : Rig.Dwells part ⟨m, .fresh cadence⟩ q) :
    h.Going (h.course part cost ⟨m, .fresh cadence⟩) (q, .empty) ∧
      Armed part (h.course part cost ⟨m, .fresh cadence⟩) ⟨.zero, (part m.world).now, (part m.world).now⟩
        (q, .empty) := by
  have time : Watched.time part (q, .empty) = (part m.world).now.nanos := Watched.time_of_dwells dwells _
  have first : (h.course part cost ⟨m, .fresh cadence⟩).tick 0 = (part m.world).now.nanos := by
    rw [Course.tick, Nat.zero_mul]
    rfl
  have going : h.Going (h.course part cost ⟨m, .fresh cadence⟩) (⟨m, .fresh cadence⟩, .empty) :=
    ⟨running, reachable, rfl, rfl, rfl, nofun, nofun, nofun, .nil,
      fun _ none => absurd none (Nat.not_lt_zero _)⟩
  refine ⟨going.idles dwells.toIdles, first.symm, Nat.le_of_eq time, nofun, fun _ => ⟨rfl, time⟩, ?_⟩
  rw [time]
  exact Nat.le_add_right _ _

open Act in
theorem account_eq (timed : h.Timed part put cost) (r : Rig σ) :
    ∃ q, Rig.Dwells part r q ∧ ∀ fuel,
      let s : LoopState := ⟨.zero, (part r.machine.world).now, (part r.machine.world).now⟩
      h.account fuel r = ((h.notedTurns Account.note fuel s).after (q, .empty)).2 ∧
      ∀ stats v, h.notedTurns Account.note fuel s (q, .empty) = .ok (some stats) v →
        ∃ p, h.run fuel r = .ok (some stats) p ∧ p.machine.world = v.1.machine.world := by
  obtain ⟨q, read, dwells⟩ := timed.reading r
  refine ⟨q, dwells, fun fuel => ?_⟩
  have begun : (Rig.call h.clock.now).aside r.watched = .ok (part r.machine.world).now (q, .empty) :=
    ((Rig.call h.clock.now).projects_aside _ r).trans (congrArg (view (·, Account.empty)) read)
  obtain ⟨same, rig⟩ := h.watchedRun_of fuel (w := r.watched) (r := r) rfl
  dsimp only
  unfold account after answer watchedRun notedRun at *
  rw [doing_quiet _ fun _ _ => rfl, bind_apply, begun] at *
  dsimp only at *
  rw [bind_apply] at *
  generalize LoopState.mk .zero (part r.machine.world).now (part r.machine.world).now = s at *
  cases turns : h.notedTurns Account.note fuel s (q, .empty) with
  | error p v => exact ⟨rfl, fun _ _ ended => by cases ended⟩
  | ok ended v =>
    rw [turns] at same rig
    cases ended with
    | none => exact ⟨rfl, fun _ _ ended => by cases ended⟩
    | some stats =>
      refine ⟨rfl, ?_⟩
      rintro _ _ ⟨⟩
      cases run : h.run fuel r with
      | error p u =>
        rw [run] at same
        cases same
      | ok o u =>
        rw [run] at same rig
        cases same
        exact ⟨u, rfl, congrArg (·.machine.world) rig.symm⟩

/-- **The timing of a host loop.** A loop with a fresh scheduler runs a session on a clock that only its own
waits and the steps of the core move. Then, whatever the spacing of its pictures, the tick `k` begins `k`
periods after the start and attempts one step; the first refresh is at the start, and two that follow each
other are at least the spacing apart, and at most the cost of a step more. And if its input runs dry, the
loop gets to every tick and to all pictures until then, unless it is asked to stop. All this as long as there
are such times, and the session can count its steps. -/
theorem run_punctual (timed : h.Timed part put cost) (m : Machine σ) (cadence : Cadence)
    (running : m.session.isRunning = true) (reachable : m.session.Reachable) :
    let start : Rig σ := ⟨m, .fresh cadence⟩
    let c := h.course part cost start
    (∀ fuel, ((h.watchedRun fuel).after start.watched).1 = (h.run fuel).after start) ∧
    (∀ fuel, c.tick (h.account fuel start).ticks.length < Duration.limit →
      c.steps + (h.account fuel start).ticks.length < UInt64.size →
      h.Punctual c (h.account fuel start).ticks (h.account fuel start).refreshes) ∧
    (0 < c.spacing → h.RunsDry → ∀ k, c.tick k + c.spacing < Duration.limit → c.steps + k < UInt64.size →
      ∃ enough, ∀ fuel, enough ≤ fuel → Beyond c k (h.account fuel start) ∨
        ∃ stats q, h.run fuel start = .ok (some stats) q ∧ h.stopRequested q.machine.world = true) := by
  intro start c
  obtain ⟨q, dwells, accounts⟩ := account_eq timed ⟨m, .fresh cadence⟩
  obtain ⟨going, armed⟩ := going_start (h := h) running reachable dwells
  refine ⟨fun fuel => (h.watchedRun_of fuel rfl).2, fun fuel fits room => ?_,
    fun positive dry k fits room => ?_⟩
  · obtain ⟨same, -⟩ := accounts fuel
    have ended := (watchedTurns_ends timed (c := c) rfl rfl fits room fuel _ _ (.inr ⟨going, armed⟩)).leaves
    rw [← same] at ended
    exact ended.resolve_left fun beyond => Nat.lt_irrefl _ beyond.ticks
  · obtain ⟨enough, reach⟩ := watchedTurns_reach timed (c := c) rfl rfl positive dry fits room _ _ going armed
      (Nat.zero_le k)
    refine ⟨enough, fun fuel more => ?_⟩
    obtain ⟨same, leaves⟩ := accounts fuel
    have reached := reach fuel more
    unfold Reaches Act.Ends at reached
    cases ran : h.notedTurns Account.note fuel ⟨.zero, (part m.world).now, (part m.world).now⟩ (q, .empty) with
    | error p v =>
      have beyond : Beyond c k v.2 := by rwa [ran] at reached
      rw [Act.after_of_error ran] at same
      exact .inl (same ▸ beyond)
    | ok o v =>
      rw [ran] at reached
      rw [Act.after_of_ok ran] at same
      refine reached.imp (fun beyond => same ▸ beyond) fun left => ?_
      obtain ⟨left, asked⟩ := left
      obtain ⟨stats, rfl⟩ := Option.isSome_iff_exists.mp left
      obtain ⟨p, run, world⟩ := leaves stats v ran
      exact ⟨stats, p, run, world ▸ asked⟩

/-- A core that only takes time. Every step of it panics after seven nanoseconds. -/
def slowCore : Core ManualClock where
  reset := return
  load _ := return true
  step := do
    ManualClock.advance (.ofNanos 7)
    throw .other
  updateKey _ := return
  memory := return .empty
  base := 0
  unit := .frame

/-- A loop that shows a picture every three nanoseconds. -/
def slowLoop : HostLoop ManualClock :=
  ⟨slowCore, ManualClock.clock, ⟨fun _ _ _ => return .ok ()⟩, .silent, fun _ => false, .ofNanos 3⟩

/-- A session on the slow core that runs, at a hundred nanoseconds. -/
def slowMachine : Machine ManualClock :=
  Machine.run slowCore [.loadRom .empty] (.fresh slowCore .packed ⟨.ofNanos 100⟩)

theorem slowLoop_timed : slowLoop.Timed id (fun c _ => c) (.ofNanos 7) where
  part_put _ _ := rfl
  clock := by
    have same {α : Type} (x : Act ManualClock α) : x.within id (fun c _ => c) = x := by
      funext c
      unfold Act.within
      cases h : x (id c) <;> exact h.symm
    simp only [same]
    rfl
  step c fits := by
    have moved : ∃ t, c.now.add? (.ofNanos 7) = some t := by
      rw [← Option.isSome_iff_exists, ← Option.ne_none_iff_isSome, Ne, Duration.add?_eq_none_iff]
      exact Nat.not_le_of_lt fits
    obtain ⟨t, sum⟩ := moved
    have after : slowLoop.core.step.after c = ⟨t⟩ := by
      change ((Act.ofExcept (c.now.after (.ofNanos 7)) >>= fun t => set (⟨t⟩ : ManualClock)) >>= fun _ =>
        throw .other : Act ManualClock (Except Failure Unit)).after c = _
      rw [Duration.after, sum]
      rfl
    rw [after]
    exact Duration.add?_eq_some_iff.mp sum
  updateKey _ c := ⟨c, rfl, rfl⟩
  memory _ := rfl
  paint _ _ _ _ := rfl
  poll _ := rfl

theorem run_punctual_slowLoop :
    let start : Rig ManualClock := ⟨slowMachine, .fresh ⟨.ofNanos 5, .frame⟩⟩
    let c := slowLoop.course id (.ofNanos 7) start
    slowMachine.session.isRunning = true ∧ slowMachine.session.Reachable ∧ slowLoop.RunsDry ∧
      slowLoop.Punctual c (slowLoop.account 9 start).ticks (slowLoop.account 9 start).refreshes ∧
      ∃ enough, ∀ fuel, enough ≤ fuel → 1000 < (slowLoop.account fuel start).ticks.length ∧
        700 ≤ (slowLoop.account fuel start).refreshes.length := by
  intro start c
  have running : slowMachine.session.isRunning = true := rfl
  have reachable : slowMachine.session.Reachable := Machine.run_reachable slowCore _ _ (.fresh _ _)
  have dry : slowLoop.RunsDry := fun r _ _ => ⟨1, r, rfl⟩
  obtain ⟨-, punctual, reach⟩ := run_punctual slowLoop_timed slowMachine ⟨.ofNanos 5, .frame⟩ running reachable
  have few := slowLoop.account_ticks_le 9 start
  have never (r : Rig ManualClock) : slowLoop.stopRequested r.machine.world ≠ true := nofun
  obtain ⟨enough, gets⟩ := reach (by decide) dry 1000 (by decide) (by decide)
  refine ⟨running, reachable, dry, punctual 9 ?_ ?_, enough, fun fuel more => ?_⟩
  · exact Nat.lt_of_le_of_lt (c.tick_mono few) (by decide)
  · exact Nat.lt_of_le_of_lt (Nat.add_le_add_left few c.steps) (by decide)
  · have beyond := (gets fuel more).resolve_right fun stopped => by
      obtain ⟨_, q, -, asked⟩ := stopped
      exact never q asked
    have shown : 100 + 1000 * 7 ≤ 100 + (slowLoop.account fuel start).refreshes.length * (3 + 7) := beyond.shown
    exact ⟨beyond.ticks, by omega⟩

end Run

end HostLoop

end EmulatorHost
