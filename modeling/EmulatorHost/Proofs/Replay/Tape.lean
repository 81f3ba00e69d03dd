import EmulatorHost.Proofs.Replay.Log
import Mathlib.Data.List.TakeWhile

/-!
# Tapes of a session

* `Recorder.Abreast`, `Playback.Abreast`: a tape that has begun, and is past no tick that is yet to come;
  **`Recorder.Abreast.record`**, **`Playback.Abreast.due`**: at that step it takes an event, or yields the
  entries that are due, and is abreast of the step again.
* `Session.Plays`: what a session is still to play, and the tick of its next step;
  **`Session.Plays.due`**: before a step, the entries up to its tick are applied and the others are left.
* `Session.Records`: what a session has recorded, and the tick of its next step;
  **`Session.Records.recorded`**: an event is recorded at that tick.
* `Session.Abreast`: both tapes of a session are abreast of its step count; **`Session.Performs.abreast`**: every
  operation keeps them so, wherever the core panics.
-/

namespace EmulatorHost

theorem stepsSince_of_le {origin steps : UInt64} (h : origin ≤ steps) :
    stepsSince origin steps = .ok (steps - origin) := if_pos h

theorem stepsSince_ok {origin steps : UInt64} {k : Nat} (h : origin.toNat + k = steps.toNat) :
    stepsSince origin steps = .ok (steps - origin) ∧ (steps - origin).toNat = k := by
  have le : origin ≤ steps := by
    rw [UInt64.le_iff_toNat_le]
    omega
  refine ⟨stepsSince_of_le le, ?_⟩
  rw [UInt64.toNat_sub_of_le _ _ le]
  omega

theorem sub_origin_le {origin steps steps' : UInt64} (begun : origin ≤ steps) (le : steps ≤ steps') :
    steps - origin ≤ steps' - origin := by
  rw [UInt64.le_iff_toNat_le, UInt64.toNat_sub_of_le _ _ begun,
    UInt64.toNat_sub_of_le _ _ (UInt64.le_trans begun le)]
  exact Nat.sub_le_sub_right (UInt64.le_iff_toNat_le.mp le) _

theorem InputLog.accepts_of_le {l : InputLog} {tick : UInt64} (h : ∀ e ∈ l.entries, e.tick ≤ tick) :
    l.accepts tick = true := by
  unfold accepts
  split
  · rfl
  · next last ends => exact decide_eq_true (h last (List.mem_of_getLast? ends))

/-! ## Recordings and the step count -/

namespace Recorder

/-- At a step the recording has begun, and its entries are in order and of no tick yet to come. -/
structure Abreast (r : Recorder) (steps : UInt64) : Prop where
  begun : r.origin ≤ steps
  ordered : r.log.Ordered
  stamped : ∀ e ∈ r.log.entries, e.tick ≤ steps - r.origin

variable {r : Recorder} {steps steps' : UInt64}

theorem abreast_start (steps : UInt64) : (start steps).Abreast steps := ⟨UInt64.le_refl _, .nil, nofun⟩

theorem record_ok (begun : r.origin ≤ steps) (accepted : r.log.accepts (steps - r.origin) = true)
    (e : ButtonEvent) :
    r.record steps e = .ok { r with log := r.log.add (steps - r.origin).toNat e } := by
  have push : r.log.push? (steps - r.origin) e = some (r.log.add (steps - r.origin).toNat e) := by
    rw [InputLog.push?, if_pos accepted, InputLog.add, UInt64.ofNat_toNat]
  rw [record, stepsSince_of_le begun]
  dsimp only [bind, Except.bind]
  rw [push]
  rfl

namespace Abreast

theorem later (h : r.Abreast steps) (le : steps ≤ steps') : r.Abreast steps' where
  begun := UInt64.le_trans h.begun le
  ordered := h.ordered
  stamped e member := UInt64.le_trans (h.stamped e member) (sub_origin_le h.begun le)

theorem accepts (h : r.Abreast steps) : r.log.accepts (steps - r.origin) = true :=
  InputLog.accepts_of_le h.stamped

/-- **A recording takes an event at the step that it is abreast of.** -/
theorem record (h : r.Abreast steps) (e : ButtonEvent) :
    ∃ r', r.record steps e = .ok r' ∧ r'.Abreast steps ∧
      r' = { r with log := r.log.add (steps - r.origin).toNat e } := by
  refine ⟨_, record_ok h.begun h.accepts e, ⟨h.begun, ?_, ?_⟩, rfl⟩
  · refine List.pairwise_append.mpr ⟨h.ordered, List.pairwise_singleton _ _, fun x hx y hy => ?_⟩
    rw [List.mem_singleton.mp hy, UInt64.ofNat_toNat]
    exact h.stamped x hx
  · intro x hx
    rcases List.mem_append.mp hx with before | this
    · exact h.stamped x before
    · rw [List.mem_singleton.mp this, UInt64.ofNat_toNat]
      exact UInt64.le_refl _

end Abreast

end Recorder

/-! ## Playbacks and the step count -/

namespace Playback

/-- At a step the playback has begun, it has entries left, and it is past no entry of a tick yet to come. -/
structure Abreast (p : Playback) (steps : UInt64) : Prop where
  begun : p.origin ≤ steps
  more : p.next < p.log.size
  passed : ∀ e ∈ p.log.entries.take p.next, e.tick ≤ steps - p.origin

variable {p : Playback} {steps steps' : UInt64}

theorem abreast_start {log : InputLog} (full : log.isEmpty = false) (steps : UInt64) :
    (start log steps).Abreast steps := by
  refine ⟨UInt64.le_refl _, List.length_pos_iff.mpr fun none => ?_, nofun⟩
  rw [InputLog.isEmpty, show log.entries = [] from none] at full
  cases full

theorem Abreast.later (h : p.Abreast steps) (le : steps ≤ steps') : p.Abreast steps' where
  begun := UInt64.le_trans h.begun le
  more := h.more
  passed e member := UInt64.le_trans (h.passed e member) (sub_origin_le h.begun le)

theorem next_le_reach (p : Playback) (tick : UInt64) : p.next ≤ p.reach tick := Nat.le_add_right _ _

theorem reach_le_size (inside : p.next ≤ p.log.size) (tick : UInt64) : p.reach tick ≤ p.log.size := by
  have front : (p.dueEntries tick).length ≤ p.rest.length := (List.takeWhile_prefix _).length_le
  rw [rest, List.length_drop] at front
  unfold reach InputLog.size at *
  omega

theorem tick_le_of_due {tick : UInt64} {e : InputEntry} (h : e ∈ p.dueEntries tick) : e.tick ≤ tick := by
  simpa using List.mem_takeWhile_imp h

/-- The entries up to the reach of a tick are those that were passed, and those that are due. -/
theorem take_reach (p : Playback) (tick : UInt64) :
    p.log.entries.take (p.reach tick) = p.log.entries.take p.next ++ p.dueEntries tick := by
  rw [reach, List.take_add]
  exact congrArg _ (List.prefix_iff_eq_take.mp (List.takeWhile_prefix _)).symm

theorem slice_reach (inside : p.next ≤ p.log.size) (tick : UInt64) :
    p.log.slice p.next (p.reach tick) = .ok (p.dueEntries tick) := by
  rw [InputLog.slice, if_neg (Nat.not_lt.mpr (p.next_le_reach tick)),
    if_neg (Nat.not_lt.mpr (reach_le_size inside tick)), List.extract_eq_take_drop, reach,
    Nat.add_sub_cancel_left]
  exact congrArg Except.ok (List.prefix_iff_eq_take.mp (List.takeWhile_prefix _)).symm

theorem due_ok (begun : p.origin ≤ steps) (inside : p.next ≤ p.log.size) :
    p.due steps = .ok ((p.dueEntries (steps - p.origin)).map (·.event),
      { p with next := p.reach (steps - p.origin) }) := by
  rw [due, stepsSince_of_le begun]
  dsimp only [bind, Except.bind]
  rw [slice_reach inside]
  rfl

/-- **A playback yields what is due at the step that it is abreast of**, and then has no more entries or is
abreast of the step again. -/
theorem Abreast.due (h : p.Abreast steps) :
    ∃ es p', p.due steps = .ok (es, p') ∧ (p'.isFinished = false → p'.Abreast steps) := by
  refine ⟨_, _, due_ok h.begun (Nat.le_of_lt h.more), fun unfinished => ⟨h.begun, ?_, fun e member => ?_⟩⟩
  · exact Nat.not_le.mp (of_decide_eq_false unfinished)
  · rw [take_reach] at member
    rcases List.mem_append.mp member with before | now
    · exact h.passed e before
    · exact tick_le_of_due now

end Playback

namespace Session

/-! ## Playing back -/

/-- The session is still to play the entries `es`, and its next step is the tick `k` of their log. -/
def Plays (s : Session) (es : List InputEntry) (k : Nat) : Prop :=
  match s.playback with
  | none => es = []
  | some p => p.rest = es ∧ es ≠ [] ∧ p.origin.toNat + k = s.steps.toNat

section Plays

variable {s t : Session} {es : List InputEntry} {k : Nat}

theorem plays_of_none (h : s.playback = none) : s.Plays es k ↔ es = [] := by
  rw [Plays, h]

theorem plays_of_some {p : Playback} (h : s.playback = some p) :
    s.Plays es k ↔ p.rest = es ∧ es ≠ [] ∧ p.origin.toNat + k = s.steps.toNat := by
  rw [Plays, h]

theorem Plays.of_eq (h : s.Plays es k) (playback : t.playback = s.playback) (steps : t.steps = s.steps) :
    t.Plays es k := by
  unfold Plays at *
  rw [playback, steps]
  exact h

theorem Plays.isPlaying_iff (h : s.Plays es k) : s.isPlaying = true ↔ es ≠ [] := by
  unfold isPlaying
  cases hp : s.playback with
  | none => simpa using (plays_of_none hp).mp h
  | some p => simpa using ((plays_of_some hp).mp h).2.1

theorem Plays.step (h : s.Plays es k) (room : s.steps.toNat + 1 < UInt64.size) :
    ({ s with steps := s.steps + 1 } : Session).Plays es (k + 1) := by
  cases hp : s.playback with
  | none => exact (plays_of_none rfl).mpr ((plays_of_none hp).mp h)
  | some p =>
    obtain ⟨left, more, tick⟩ := (plays_of_some hp).mp h
    refine (plays_of_some rfl).mpr ⟨left, more, ?_⟩
    dsimp only
    rw [steps_toNat room]
    omega

theorem plays_start (s : Session) {log : InputLog} (h : log.isEmpty = false) :
    ({ s with playback := some (.start log s.steps) } : Session).Plays log.entries 0 := by
  refine (plays_of_some rfl).mpr ⟨rfl, ?_, Nat.add_zero _⟩
  rintro none
  rw [InputLog.isEmpty, none] at h
  cases h

theorem drop_length_takeWhile {α : Type} (p : α → Bool) (l : List α) :
    l.drop (l.takeWhile p).length = l.dropWhile p := by
  have split := List.takeWhile_append_dropWhile (p := p) (l := l)
  calc l.drop (l.takeWhile p).length
    _ = (l.takeWhile p ++ l.dropWhile p).drop (l.takeWhile p).length := by rw [split]
    _ = l.dropWhile p := List.drop_left

theorem isFinished_iff (p : Playback) : p.isFinished = true ↔ p.rest = [] := by
  rw [Playback.isFinished, Playback.rest, List.drop_eq_nil_iff, decide_eq_true_iff]
  rfl

theorem due_of_tick {p : Playback} (hp : s.playback = some p) (inside : p.next ≤ p.log.size)
    (tick : p.origin.toNat + k = s.steps.toNat) :
    ∃ t, s.due = .ok ((p.rest.takeWhile fun e => e.tick.toNat ≤ k).map (·.event), t) ∧
      t.Plays (p.rest.dropWhile fun e => e.tick.toNat ≤ k) k := by
  have toNat := (stepsSince_ok tick).2
  have begun : p.origin ≤ s.steps := by
    rw [UInt64.le_iff_toNat_le]
    omega
  have entries : p.dueEntries (s.steps - p.origin) = p.rest.takeWhile fun e => e.tick.toNat ≤ k := by
    rw [Playback.dueEntries]
    congr 1
    funext e
    rw [decide_eq_decide, UInt64.le_iff_toNat_le, toNat]
  let p' : Playback := { p with next := p.reach (s.steps - p.origin) }
  have rest : p'.rest = p.rest.dropWhile fun e => e.tick.toNat ≤ k := by
    rw [← drop_length_takeWhile, ← entries]
    exact List.drop_drop.symm
  have due : p.due s.steps = .ok ((p.rest.takeWhile fun e => e.tick.toNat ≤ k).map (·.event), p') := by
    rw [Playback.due_ok begun inside, entries]
  refine ⟨_, by rw [due_of_playback hp, due]; rfl, ?_⟩
  dsimp only
  split_ifs with finished
  · rw [isFinished_iff, rest] at finished
    exact (plays_of_none rfl).mpr finished
  · rw [isFinished_iff, rest] at finished
    exact (plays_of_some rfl).mpr ⟨rest, finished, tick⟩

/-- **Before a step, the entries up to its tick are applied and the others are left.** -/
theorem Plays.due (h : s.Plays es k) :
    ∃ t, s.due = .ok ((es.takeWhile fun e => e.tick.toNat ≤ k).map (·.event), t) ∧
      t.Plays (es.dropWhile fun e => e.tick.toNat ≤ k) k := by
  cases hp : s.playback with
  | none =>
    cases (plays_of_none hp).mp h
    exact ⟨s, by rw [Session.due, hp]; rfl, (plays_of_none hp).mpr rfl⟩
  | some p =>
    obtain ⟨rfl, more, tick⟩ := (plays_of_some hp).mp h
    have inside : p.next < p.log.size := by
      rw [← Nat.not_le]
      exact fun past => more (List.drop_eq_nil_of_le past)
    exact due_of_tick hp (Nat.le_of_lt inside) tick

theorem Plays.due_split (h : s.Plays es k) (sorted : es.Pairwise fun x y => x.tick ≤ y.tick) :
    ∃ done rest t, es = done ++ rest ∧ s.due = .ok (done.map (·.event), t) ∧ t.Plays rest k ∧
      (∀ e ∈ done, e.tick.toNat ≤ k) ∧ ∀ e ∈ rest, k < e.tick.toNat := by
  obtain ⟨t, due, plays⟩ := h.due
  obtain ⟨take, drop⟩ := InputLog.takeWhile_of_sorted sorted k
  refine ⟨_, _, t, List.takeWhile_append_dropWhile.symm, due, plays, fun e he => ?_, fun e he => ?_⟩
  · rw [take] at he
    simpa using (List.mem_filter.mp he).2
  · rw [drop] at he
    simpa using (List.mem_filter.mp he).2

theorem Plays.due_tick {l : InputLog} (h : s.Plays (l.entriesFrom k) k) (ordered : l.Ordered) :
    ∃ t, s.due = .ok (l.eventsAt k, t) ∧ t.Plays (l.entriesFrom (k + 1)) k := by
  obtain ⟨events, rest⟩ := InputLog.entriesFrom_split ordered k
  rw [← events, ← rest]
  exact h.due

theorem tick_of_due {p : Playback} {d : List ButtonEvent × Session} (hp : s.playback = some p)
    (due : s.due = .ok d) : p.origin.toNat + (s.steps.toNat - p.origin.toNat) = s.steps.toNat := by
  by_contra later
  have : ¬ p.origin ≤ s.steps := by
    rw [UInt64.le_iff_toNat_le]
    omega
  rw [due_of_playback hp, Playback.due, stepsSince, if_neg this] at due
  cases due

theorem inside_of_due {p : Playback} {d : List ButtonEvent × Session} (hp : s.playback = some p)
    (due : s.due = .ok d) : p.next ≤ p.log.size := by
  by_contra past
  have now := stepsSince_ok (tick_of_due hp due)
  have none : p.dueEntries (s.steps - p.origin) = [] := by
    rw [Playback.dueEntries, Playback.rest, List.drop_eq_nil_of_le (Nat.le_of_not_le past)]
    rfl
  have outside : p.log.size < p.reach (s.steps - p.origin) := by
    rw [Playback.reach, none]
    exact Nat.not_le.mp past
  rw [due_of_playback hp, Playback.due, now.1] at due
  dsimp only [bind, Except.bind] at due
  rw [InputLog.slice, if_neg (Nat.not_lt.mpr (p.next_le_reach _)), if_pos outside] at due
  cases due

end Plays

/-! ## Recording -/

/-- The session has recorded the log `l`, and its next step is the tick `k` of it. -/
structure Records (s : Session) (l : InputLog) (k : Nat) : Prop where
  ordered : l.Ordered
  ticks : ∀ e ∈ l.entries, e.tick.toNat ≤ k
  tape : ∃ origin, s.recorder = some ⟨l, origin⟩ ∧ origin.toNat + k = s.steps.toNat

namespace Records

variable {s t : Session} {l : InputLog} {k : Nat}

theorem tick_lt (h : s.Records l k) : k < UInt64.size := by
  obtain ⟨origin, -, tick⟩ := h.tape
  have := s.steps.toNat_lt_size
  omega

theorem of_eq (h : s.Records l k) (recorder : t.recorder = s.recorder) (steps : t.steps = s.steps) :
    t.Records l k := by
  refine ⟨h.ordered, h.ticks, ?_⟩
  rw [recorder, steps]
  exact h.tape

theorem start (s : Session) : ({ s with recorder := some (.start s.steps) } : Session).Records .empty 0 :=
  ⟨List.Pairwise.nil, nofun, s.steps, rfl, Nat.add_zero _⟩

theorem step (h : s.Records l k) (room : s.steps.toNat + 1 < UInt64.size) :
    ({ s with steps := s.steps + 1 } : Session).Records l (k + 1) := by
  obtain ⟨origin, recorder, tick⟩ := h.tape
  refine ⟨h.ordered, fun e he => Nat.le_succ_of_le (h.ticks e he), origin, recorder, ?_⟩
  dsimp only
  rw [steps_toNat room]
  omega

theorem iff_abreast {origin : UInt64} (recorder : s.recorder = some ⟨l, origin⟩)
    (tick : origin.toNat + k = s.steps.toNat) :
    s.Records l k ↔ (Recorder.mk l origin).Abreast s.steps := by
  have toNat := (stepsSince_ok tick).2
  have stamped (e : InputEntry) : e.tick ≤ s.steps - origin ↔ e.tick.toNat ≤ k := by
    rw [UInt64.le_iff_toNat_le, toNat]
  constructor
  · intro h
    refine ⟨?_, h.ordered, fun e member => (stamped e).mpr (h.ticks e member)⟩
    rw [UInt64.le_iff_toNat_le]
    dsimp only
    omega
  · intro h
    exact ⟨h.ordered, fun e member => (stamped e).mp (h.stamped e member), origin, recorder, tick⟩

/-- **An event is recorded at the tick of the next step.** -/
theorem recorded (h : s.Records l k) (e : ButtonEvent) :
    ∃ t, s.recorded e = .ok t ∧ t.Records (l.add k e) k := by
  obtain ⟨origin, recorder, tick⟩ := h.tape
  obtain ⟨r', record, abreast, rfl⟩ := ((iff_abreast recorder tick).mp h).record e
  dsimp only at record abreast
  rw [(stepsSince_ok tick).2] at record abreast
  let t : Session := { s with recorder := some ⟨l.add k e, origin⟩ }
  have recorded : s.recorded e = .ok t := by
    rw [Session.recorded, recorder]
    dsimp only
    rw [record]
    rfl
  have tape : t.recorder = some ⟨l.add k e, origin⟩ := rfl
  exact ⟨t, recorded, (iff_abreast tape tick).mpr abreast⟩

end Records

/-! ## Both tapes -/

/-- The tapes of a session are abreast of its steps. -/
structure Abreast (s : Session) : Prop where
  recorder : ∀ r, s.recorder = some r → r.Abreast s.steps
  playback : ∀ p, s.playback = some p → p.Abreast s.steps

section Abreast

variable {s t : Session} {op : Op} {xs : List Exchange}

theorem le_succ_steps (room : s.steps.toNat + 1 < UInt64.size) : s.steps ≤ s.steps + 1 := by
  rw [UInt64.le_iff_toNat_le, steps_toNat room]
  exact Nat.le_succ _

namespace Abreast

theorem fresh (base : Nat) (d : Delivery) : (fresh base d).Abreast := ⟨nofun, nofun⟩

theorem of_tapes (h : s.Abreast) (recorder : ∀ r, t.recorder = some r → s.recorder = some r)
    (playback : ∀ p, t.playback = some p → s.playback = some p) (steps : s.steps ≤ t.steps) : t.Abreast where
  recorder r tape := (h.recorder r (recorder r tape)).later steps
  playback p tape := (h.playback p (playback p tape)).later steps

theorem of_eq (h : s.Abreast) (recorder : t.recorder = s.recorder) (playback : t.playback = s.playback)
    (steps : t.steps = s.steps) : t.Abreast := by
  refine h.of_tapes (fun r tape => ?_) (fun p tape => ?_) (steps ▸ UInt64.le_refl _)
  · rw [← recorder, tape]
  · rw [← playback, tape]

/-- **A live event can be recorded.** -/
theorem recorded (h : s.Abreast) (e : ButtonEvent) : ∃ t, s.recorded e = .ok t ∧ t.Abreast := by
  cases tape : s.recorder with
  | none => exact ⟨s, by rw [Session.recorded, tape], h⟩
  | some r =>
    obtain ⟨r', record, abreast, -⟩ := (h.recorder r tape).record e
    refine ⟨{ s with recorder := some r' }, ?_, ?_, h.playback⟩
    · rw [Session.recorded, tape]
      dsimp only
      rw [record]
      rfl
    · rintro _ ⟨⟩
      exact abreast

theorem recorded_ne_error (h : s.Abreast) (e : ButtonEvent) (q : Panic) : s.recorded e ≠ .error q := by
  intro lost
  obtain ⟨t, recorded, -⟩ := h.recorded e
  cases lost.symm.trans recorded

/-- **What is due before a step can be told.** -/
theorem due (h : s.Abreast) : ∃ es t, s.due = .ok (es, t) ∧ t.Abreast := by
  cases tape : s.playback with
  | none => exact ⟨[], s, by rw [Session.due, tape], h⟩
  | some p =>
    obtain ⟨es, p', due, abreast⟩ := (h.playback p tape).due
    let t : Session := { s.hold es with playback := if p'.isFinished then none else some p' }
    have told : s.due = .ok (es, t) := by
      rw [due_of_playback tape, due]
      rfl
    have left : ∀ q, t.playback = some q → q.Abreast t.steps := by
      intro q left
      change (if p'.isFinished then none else some p') = some q at left
      split_ifs at left with finished
      cases left
      exact abreast (Bool.eq_false_iff.mpr finished)
    exact ⟨es, t, told, h.recorder, left⟩

theorem due_ne_error (h : s.Abreast) (q : Panic) : s.due ≠ .error q := by
  intro lost
  obtain ⟨es, t, due, -⟩ := h.due
  cases lost.symm.trans due

end Abreast

theorem PlaysDue.abreast {r : Except Panic Unit} (h : PlaysDue s xs r t) (hs : s.Abreast) : t.Abreast := by
  cases h with
  | delivered due =>
    obtain ⟨es, t', due', abreast⟩ := hs.due
    obtain ⟨-, rfl⟩ := Prod.mk.inj (Except.ok.inj (due'.symm.trans due))
    exact abreast
  | broken => exact hs.of_tapes (fun _ tape => tape) nofun (UInt64.le_refl _)
  | cut => exact hs.of_tapes (fun _ tape => tape) nofun (UInt64.le_refl _)

theorem Applies.abreast {e : ButtonEvent} {r : Except Panic Answer} (h : Applies s e xs r t)
    (hs : s.Abreast) : t.Abreast := by
  have held : (s.hold [e]).Abreast := hs.of_eq rfl rfl rfl
  cases h with
  | recorded kept =>
    obtain ⟨t', recorded, abreast⟩ := held.recorded e
    cases kept.symm.trans recorded
    exact abreast
  | unrecorded => exact held
  | cut => exact held

theorem Steps.abreast {r : Except Panic Answer} (h : Steps s xs r t) (hs : s.Abreast) : t.Abreast := by
  cases h with
  | cut due => exact due.abreast hs
  | unannounced due => exact due.abreast hs
  | uncounted due => exact due.abreast hs
  | taken due room => exact (due.abreast hs).of_tapes (fun _ tape => tape) (fun _ tape => tape) (le_succ_steps room)

/-- **Every operation keeps the tapes abreast**, also one that is cut short. -/
theorem Performs.abreast {r : Except Panic Answer} (h : Performs s op xs r t) (hs : s.Abreast) :
    t.Abreast := by
  by_cases quiet : op.isQuiet = true
  · have rests := h.rests quiet
    exact hs.of_eq rests.recorder rests.playback rests.steps
  · cases h with
    | dropped => exact hs
    | applied _ h => exact h.abreast hs
    | stepIgnored => exact hs
    | stepped _ h => exact h.abreast hs
    | recordingStarted =>
      refine ⟨?_, hs.playback⟩
      rintro _ ⟨⟩
      exact Recorder.abreast_start s.steps
    | recordingStopped => exact ⟨nofun, hs.playback⟩
    | played log =>
      split_ifs with empty
      · exact hs
      · refine ⟨hs.recorder, ?_⟩
        rintro _ ⟨⟩
        exact Playback.abreast_start (Bool.eq_false_iff.mpr empty) s.steps
    | _ => exact absurd rfl quiet

end Abreast

end Session

end EmulatorHost
