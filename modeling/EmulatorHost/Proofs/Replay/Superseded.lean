import EmulatorHost.Proofs.Replay.OnTime

/-!
# One log in place of another

A log that is played takes the place of whatever was played before, but for the log without entries, which
is ignored.

* `Session.Awaits`: the entries that a session is still to deliver, at their ticks or not at all.
* **`Rig.Performs.awaits`**: an operation delivers the first of them, each at its tick. What it loses, it
  loses as a core that takes single events panics.
* `Supersedes`: from a log on that is played, its entries and no others are delivered, and live input is
  dropped while one is left.
* **`Rig.supersedes_iff`**: a log supersedes what was played before unless it has no entries, and then if
  nothing was played. `Rig.not_supersedes_empty`: the log without entries leaves the old one playing.
-/

namespace EmulatorHost

namespace Session

/-! ## Entries that are awaited -/

/-- The session has the entries `es` before it, none of them late, and its next step is the tick `k`. -/
structure Awaits (s : Session) (es : List InputEntry) (k : Nat) : Prop where
  plays : s.Plays es k
  sorted : es.Pairwise fun x y => x.tick ≤ y.tick
  future : ∀ e ∈ es, k ≤ e.tick.toNat

/-- What became of the entries `es` by the tick `k`: those in front were delivered, each at this tick, and the
rest is awaited. Some at the end may be lost, unless the session is `safe`. -/
structure Delivers (es : List InputEntry) (k : Nat) (safe : Prop) (events : List ButtonEvent)
    (done rest : List InputEntry) : Prop where
  front : done ++ rest <+: es
  whole : safe → done ++ rest = es
  released : events = done.map (·.event)
  now : ∀ e ∈ done, e.tick.toNat = k

variable {s s' t : Session} {op : Op} {es : List InputEntry} {k : Nat} {xs : List Exchange}

theorem Delivers.none (es : List InputEntry) (k : Nat) (safe : Prop) : Delivers es k safe [] [] es :=
  ⟨List.prefix_rfl, fun _ => rfl, rfl, nofun⟩

namespace Awaits

theorem of_eq (h : s.Awaits es k) (playback : t.playback = s.playback) (steps : t.steps = s.steps) :
    t.Awaits es k :=
  ⟨h.plays.of_eq playback steps, h.sorted, h.future⟩

theorem of_none (h : s.playback = none) (k : Nat) : s.Awaits [] k :=
  ⟨(plays_of_none h).mpr rfl, .nil, nofun⟩

theorem due (h : s.Awaits es k) : ∃ done rest t, es = done ++ rest ∧ s.due = .ok (done.map (·.event), t) ∧
    (∀ e ∈ done, e.tick.toNat = k) ∧ t.Awaits rest k ∧ ∀ e ∈ rest, k < e.tick.toNat := by
  obtain ⟨done, rest, t, rfl, due, plays, early, later⟩ := h.plays.due_split h.sorted
  refine ⟨done, rest, t, rfl, due, fun e he => ?_, ⟨plays, (List.pairwise_append.mp h.sorted).2.1, ?_⟩, later⟩
  · exact Nat.le_antisymm (early e he) (h.future e (List.mem_append_left _ he))
  · exact fun e he => Nat.le_of_lt (later e he)

/-- A step delivers the entries of its tick. One on which the core panics is the last one delivered. -/
theorem step {r : Except Panic Answer} (h : s.Awaits es k) (hs : Steps s xs r s') :
    ∃ done rest, Delivers es k (s.delivery = .packed ∨ KeysReturn xs) (s.released (some .step) xs) done rest ∧
      s'.Awaits rest (k + xs.countP Exchange.isStep) := by
  have released : s.released (some .step) xs = s.applied (some .step) xs := hs.delivered
  obtain ⟨done, rest, t, split, due, now, awaits, later⟩ := h.due
  rw [released]
  rcases hs.applied with ⟨q, cut⟩ | ⟨t', due', applied, counted⟩
  · cases cut with
    | broken broken => cases broken.symm.trans due
    | cut cut single q =>
      rename_i front back e t'
      have events : front ++ e :: back = done.map (·.event) :=
        congrArg Prod.fst (Except.ok.inj (cut.symm.trans due))
      have told : front ++ [e] <+: done.map (·.event) := ⟨back, by rw [← events]; simp⟩
      have some := List.prefix_iff_eq_take.mp told
      rw [← List.map_take] at some
      refine ⟨done.take (front ++ [e]).length, [], ⟨?_, ?_, ?_, ?_⟩, .of_none rfl _⟩
      · rw [List.append_nil, split]
        exact (List.take_prefix _ _).trans (List.prefix_append _ _)
      · rintro (packed | returns)
        · cases packed.symm.trans single
        · exact absurd (List.mem_append_right _ List.mem_cons_self) (returns (.event e) q)
      · rw [applied_discrete single, toldEvents_append, toldEvents_forwarded]
        exact some
      · exact fun e' he => now e' (List.mem_of_mem_take he)
  · rw [due] at due'
    obtain ⟨events, rfl⟩ := Prod.mk.inj (Except.ok.inj due')
    refine ⟨done, rest, ⟨split ▸ List.prefix_rfl, fun _ => split.symm, applied.trans events.symm, now⟩, ?_⟩
    rcases counted with ⟨rfl, count⟩ | ⟨room, rfl, count⟩
    · rw [count]
      exact awaits
    · rw [count]
      exact ⟨awaits.plays.step room, awaits.sorted, later⟩

end Awaits

/-- **An operation delivers the first entries awaited, each at its tick.** -/
theorem Performs.awaits {r : Except Panic Answer} (hs : Performs s op xs r s') (h : s.Awaits es k)
    (others : ∀ log, op ≠ .play log) :
    ∃ done rest, Delivers es k (s.delivery = .packed ∨ KeysReturn xs) (s.released (some op) xs) done rest ∧
      s'.Awaits rest (k + xs.countP Exchange.isStep) := by
  by_cases quiet : op.isQuiet = true
  · have rests := hs.rests quiet
    have none : s.released (some op) xs = [] := by cases op <;> first | rfl | cases quiet
    rw [none, (hs.applied_of_quiet quiet).2]
    exact ⟨[], es, .none es k _, h.of_eq rests.playback rests.steps⟩
  · cases hs with
    | dropped e dead => exact ⟨[], es, .none es k _, h⟩
    | applied live hs =>
      obtain ⟨playback, steps, -, count⟩ := hs.frame
      rw [count]
      exact ⟨[], es, .none es k _, h.of_eq playback steps⟩
    | stepIgnored =>
      rw [released_nil]
      exact ⟨[], es, .none es k _, h⟩
    | stepped _ hs => exact h.step hs
    | recordingStarted => exact ⟨[], es, .none es k _, h.of_eq rfl rfl⟩
    | recordingStopped => exact ⟨[], es, .none es k _, h.of_eq rfl rfl⟩
    | played log => exact absurd rfl (others log)
    | _ => exact absurd rfl quiet

/-- A session that takes live input applies it, whatever becomes of the call. -/
theorem Performs.controller_of_isLive {e : ButtonEvent} {r : Except Panic Answer}
    (h : Performs s (.apply e) xs r s') (live : s.isLive = true) :
    s'.controller = s.controller.apply e := by
  cases h with
  | dropped _ dead => cases live.symm.trans dead
  | applied _ h => exact (h.controller live).2

end Session

namespace Rig

variable {σ : Type} (core : Core σ) {log : InputLog}

theorem Performs.awaits {op : RigOp σ} {s s' : Session} {es : List InputEntry} {k : Nat}
    {xs : List Exchange} (hs : Performs s op xs s') (h : s.Awaits es k) (others : op.isPlay = false) :
    ∃ done rest, Session.Delivers es k (s.delivery = .packed ∨ KeysReturn xs) (s.released op.op? xs) done rest ∧
      s'.Awaits rest (k + xs.countP Exchange.isStep) := by
  cases hs with
  | asked hs => exact hs.awaits h (by rintro log rfl; cases others)
  | ticked clock hs => exact hs.awaits h nofun
  | waited =>
    rw [Session.released_nil]
    exact ⟨[], es, .none es k _, h⟩
  | refreshed => exact ⟨[], es, .none es k _, h⟩
  | stopped => exact ⟨[], es, .none es k _, h⟩

/-- **A run delivers the first entries awaited, each at its tick.** -/
theorem run_awaits {es : List InputEntry} {k : Nat} (ops : List (RigOp σ)) (r : Rig σ)
    (h : r.machine.session.Awaits es k) (others : ∀ op ∈ ops, op.isPlay = false) :
    ∃ done rest, done ++ rest <+: es ∧
      (r.machine.session.delivery = .packed ∨ KeysReturn (r.calls core ops) → done ++ rest = es) ∧
      r.stamped core Session.released ops k = done.map InputEntry.stamp ∧
      (r.run core ops).machine.session.Awaits rest (k + (r.calls core ops).countP Exchange.isStep) := by
  induction ops generalizing r es k with
  | nil => exact ⟨[], es, List.prefix_rfl, fun _ => rfl, rfl, h⟩
  | cons op ops ih =>
    obtain ⟨this, those⟩ := List.forall_mem_cons.mp others
    obtain ⟨done, mid, delivers, awaits⟩ := (op.performs core r).awaits h this
    obtain ⟨done', rest, front, whole, stamped, awaits⟩ := ih _ awaits those
    have now : done.map InputEntry.stamp = (done.map (·.event)).map (k, ·) := by
      rw [List.map_map]
      refine List.map_congr_left fun e member => ?_
      rw [InputEntry.stamp, delivers.now e member]
      rfl
    rw [calls_cons, List.countP_append, ← Nat.add_assoc, Rig.stamped, delivers.released, stamped, ← now]
    refine ⟨done ++ done', rest, ?_, fun safe => ?_, List.map_append.symm, awaits⟩
    · rw [List.append_assoc]
      exact ((List.prefix_append_right_inj done).mpr front).trans delivers.front
    · have first := delivers.whole (safe.imp_right KeysReturn.left)
      have delivery := (op.performs core r).delivery
      rw [List.append_assoc, whole (safe.imp delivery.trans KeysReturn.right), first]

/-! ## From the play on -/

/-- What has become of a log after some operations: the entries `done` were delivered and the entries `rest`
are awaited. No other entry was delivered, and live input is taken again once none is awaited. -/
structure PlaysOnly (log : InputLog) (start : Rig σ) (ops : List (RigOp σ)) (done rest : List InputEntry) :
    Prop where
  front : done ++ rest <+: log.entries
  whole : start.machine.session.delivery = .packed ∨ KeysReturn (start.calls core ops) →
    done ++ rest = log.entries
  delivered : start.stamped core Session.released ops 0 = done.map InputEntry.stamp
  ahead : ∀ e ∈ rest, (start.calls core ops).countP Exchange.isStep ≤ e.tick.toNat
  playing : (start.run core ops).machine.session.isPlaying = true ↔ rest ≠ []
  dropped (e : ButtonEvent) : rest ≠ [] →
    (RigOp.session (.apply e)).act core (start.run core ops) = .ok () (start.run core ops)
  taken (e : ButtonEvent) : rest = [] → (start.run core ops).machine.session.isRunning = true →
    (((RigOp.session (.apply e)).act core).after (start.run core ops)).machine.session.controller =
      (start.run core ops).machine.session.controller.apply e

/-- Once it is played, the log takes the place of whatever was played before, until another one is played. -/
def Supersedes (log : InputLog) (r : Rig σ) : Prop :=
  ∀ ops : List (RigOp σ), (∀ op ∈ ops, op.isPlay = false) →
    ∃ done rest, PlaysOnly core log (r.run core [.session (.play log)]) ops done rest

/-- The same, but with nothing to play. -/
def silenced (r : Rig σ) : Rig σ :=
  ⟨⟨{ r.machine.session with playback := none }, r.machine.world, r.machine.journal⟩, r.scheduler⟩

theorem playsOnly {start : Rig σ} (awaits : start.machine.session.Awaits log.entries 0)
    {ops : List (RigOp σ)} (others : ∀ op ∈ ops, op.isPlay = false) :
    ∃ done rest, PlaysOnly core log start ops done rest := by
  obtain ⟨done, rest, front, whole, delivered, awaits⟩ := run_awaits core ops start awaits others
  rw [Nat.zero_add] at awaits
  have playing := awaits.plays.isPlaying_iff
  refine ⟨done, rest, front, whole, delivered, awaits.future, playing, fun e more => ?_, fun e none running => ?_⟩
  · exact apply_of_isPlaying core e (playing.mpr more)
  · have idle : (start.run core ops).machine.session.isPlaying = false := by
      simpa [none] using playing
    have live : (start.run core ops).machine.session.isLive = true := by
      simp [Session.isLive, running, idle]
    exact (RigOp.session_performs core _ (.apply e)).controller_of_isLive live

theorem run_play_of_empty (r : Rig σ) (empty : log.isEmpty = true) :
    r.run core [.session (.play log)] = r := by
  rw [run_play, if_pos empty]

/-- Whatever was played before a log makes no difference, if the log has entries. -/
theorem run_play_silenced (r : Rig σ) (full : ¬ log.isEmpty = true) :
    r.run core [.session (.play log)] = r.silenced.run core [.session (.play log)] := by
  rw [run_play, run_play, if_neg full, if_neg full]
  rfl

/-- **A log supersedes what was played before, unless it is empty.** A log with entries in order is played on
any session. If it has entries, the session is as if nothing had been played before: from then on it delivers
these entries, each at its tick, and no others, and drops live input exactly while some are awaited. In
discrete delivery the core may panic on an entry, and those after it are lost. The log without entries changes
nothing: it supersedes what is played only where nothing is. -/
theorem supersedes_iff (r : Rig σ) (ordered : log.Ordered) :
    (Supersedes core log r ↔ (log.isEmpty = true → r.machine.session.isPlaying = false)) ∧
      (log.isEmpty = true → r.run core [.session (.play log)] = r) ∧
      (¬ log.isEmpty = true → r.run core [.session (.play log)] = r.silenced.run core [.session (.play log)]) := by
  refine ⟨⟨fun supersedes empty => ?_, fun silent => ?_⟩, run_play_of_empty core r, run_play_silenced core r⟩
  · obtain ⟨done, rest, played⟩ := supersedes [] nofun
    have none : log.entries = [] := List.isEmpty_iff.mp empty
    have front := played.front
    rw [none, List.prefix_nil, List.append_eq_nil_iff] at front
    have playing := played.playing
    rw [run_nil, run_play_of_empty core r empty] at playing
    simpa [front.2] using playing
  · intro ops others
    refine playsOnly core ?_ others
    by_cases empty : log.isEmpty = true
    · rw [run_play_of_empty core r empty, List.isEmpty_iff.mp empty]
      have idle : r.machine.session.playback = none := by simpa [Session.isPlaying] using silent empty
      exact .of_none idle 0
    · rw [run_play, if_neg empty]
      exact ⟨Session.plays_start _ (by simpa using empty), ordered, fun e _ => Nat.zero_le _⟩

/-- A session in the middle of a log. -/
def midGame : Rig (List (Option Fault)) :=
  Rig.run .faulty [.session (.play gameLog), .session .step] ⟨bootedWith [], .fresh default⟩

theorem supersedes_iff_midGame : Supersedes .faulty ⟨[⟨1, .press .start⟩]⟩ midGame ∧
    ¬ Supersedes .faulty .empty midGame := by
  have playing : midGame.machine.session.isPlaying = true := rfl
  refine ⟨(supersedes_iff .faulty midGame (by decide)).1.mpr nofun, fun supersedes => ?_⟩
  have idle := (supersedes_iff .faulty midGame (by decide)).1.mp supersedes rfl
  rw [playing] at idle
  cases idle

/-- The entries of `gameLog` that are left are still delivered after the log without entries was played. -/
theorem not_supersedes_empty : ¬ ∀ r log, log.Ordered → Supersedes Core.faulty log r := by
  intro supersedes
  obtain ⟨done, rest, played⟩ := supersedes midGame .empty (by decide) [.session .step, .session .step] (by decide)
  have delivered : (midGame.run .faulty [.session (.play .empty)]).stamped .faulty Session.released
      [.session .step, .session .step] 0 = [(1, .press .b), (1, .release .a)] := rfl
  have front := played.front
  rw [show InputLog.entries .empty = [] from rfl, List.prefix_nil, List.append_eq_nil_iff] at front
  have none := played.delivered
  rw [delivered, front.1] at none
  cases none

end Rig

end EmulatorHost
