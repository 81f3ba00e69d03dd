import EmulatorHost.Proofs.Page.Notified

/-!
# Notices as a view of a stream

Nothing is ever dropped from the stream, and it keeps the repetitions of a fault as a number of its own.
The notices are the end of the stream, as far as it has not been taken yet.

* `Feed`: the stream, told what the notices are told; `Feed.appends`: what a dealing appends to it.
* `Notices.Holds`: the notices hold the last of some texts, and count the others.
* **`Notices.Views.deal`**: a dealing leaves the notices a view of the stream; `Notices.views_foldl`: so do
  any number of them.
* **`Notices.bounded_view`**: all that a page can learn from its notices, said of the stream.
-/

namespace EmulatorHost

/-! ## The stream -/

/-- Something that is appended to a stream of notices. -/
inductive FeedEntry where
  | message (text : String)
  | fault (text : String)
  /-- The last fault came again so many times. -/
  | again (times : Nat)
  deriving DecidableEq

namespace FeedEntry

/-- The text of an entry. -/
def text : FeedEntry → String
  | message text => text
  | fault text => text
  | again times => "last fault repeated " ++ toString times ++ " more times"

/-- How many faults an entry tells of. -/
def faults : FeedEntry → Nat
  | message _ => 0
  | fault _ => 1
  | again times => times

end FeedEntry

/-- A stream of notices. -/
structure Feed where
  /-- The fault of the current run of faults. -/
  run : Option String
  /-- How often it came again and was not told yet. -/
  pending : Nat
  /-- What the page took, the oldest first. -/
  taken : List FeedEntry
  /-- What was appended since. -/
  waiting : List FeedEntry

namespace Feed

/-- A stream that was told nothing. -/
def empty : Feed := ⟨none, 0, [], []⟩

/-- The repetitions that are still to be told. -/
def overdue (s : Feed) : List FeedEntry := if s.pending = 0 then [] else [.again s.pending]

/-- What a dealing appends. A fault that repeats the one before it appends nothing. -/
def appends (s : Feed) : Dealing → List FeedEntry
  | .note (.message text) => s.overdue ++ [.message text]
  | .note (.fault text) => if s.run = some text then [] else s.overdue ++ [.fault text]
  | .take => s.overdue

/-- The stream after a dealing. A message ends the run of faults, the page taking what waits does not. -/
def deal (s : Feed) (d : Dealing) : Feed :=
  match d with
  | .note (.message _) => { s with run := none, pending := 0, waiting := s.waiting ++ s.appends d }
  | .note (.fault text) =>
    if s.run = some text then { s with pending := s.pending + 1 }
    else { s with run := some text, pending := 0, waiting := s.waiting ++ s.appends d }
  | .take => { s with pending := 0, taken := s.taken ++ (s.waiting ++ s.appends d), waiting := [] }

/-- All that was ever appended. -/
def entries (s : Feed) : List FeedEntry := s.taken ++ s.waiting

theorem entries_deal (s : Feed) (d : Dealing) : (s.deal d).entries = s.entries ++ s.appends d := by
  rcases d with (text | text) | _
  · simp [deal, entries]
  · by_cases again : s.run = some text <;> simp [deal, appends, entries, again]
  · simp [deal, entries]

/-- How many faults some entries tell of. -/
def told : List FeedEntry → Nat
  | [] => 0
  | e :: es => e.faults + told es

@[simp] theorem told_append (es fs : List FeedEntry) : told (es ++ fs) = told es + told fs := by
  induction es with
  | nil => rw [List.nil_append, told, Nat.zero_add]
  | cons e es ih => rw [List.cons_append, told, told, ih, Nat.add_assoc]

@[simp] theorem told_singleton (e : FeedEntry) : told [e] = e.faults := Nat.add_zero _

@[simp] theorem told_overdue (s : Feed) : told s.overdue = s.pending := by
  unfold overdue
  by_cases none : s.pending = 0
  · rw [if_pos none, none]
    rfl
  · rw [if_neg none, told_singleton, FeedEntry.faults]

end Feed

/-- Whether a dealing tells of a fault. -/
def Dealing.isFault : Dealing → Bool
  | note (.fault _) => true
  | note (.message _) => false
  | take => false

namespace Feed

/-- **No fault is lost.** Each one is in an entry, or still to be told. -/
theorem told_deal (s : Feed) (d : Dealing) :
    told (s.deal d).entries + (s.deal d).pending = told s.entries + s.pending + d.isFault.toNat := by
  rw [entries_deal, told_append]
  rcases d with (text | text) | _
  · simp [deal, appends, FeedEntry.faults, Dealing.isFault]
  · by_cases again : s.run = some text
    · have none : told [] = 0 := rfl
      simp [deal, appends, none, Dealing.isFault, again, Nat.add_assoc]
    · simp [deal, appends, FeedEntry.faults, Dealing.isFault, again, Nat.add_assoc]
  · simp [deal, appends, Dealing.isFault]

theorem told_foldl (ds : List Dealing) (s : Feed) :
    told (ds.foldl deal s).entries + (ds.foldl deal s).pending =
      told s.entries + s.pending + ds.countP Dealing.isFault := by
  induction ds generalizing s with
  | nil => rfl
  | cons d ds ih =>
    have bit : d.isFault.toNat = if d.isFault then 1 else 0 := by cases d.isFault <;> rfl
    rw [List.foldl_cons, ih, told_deal, List.countP_cons, bit, Nat.add_assoc, Nat.add_comm (ite _ _ _)]

end Feed

/-! ## The notices -/

namespace Notices

/-- The notices hold the last of some texts, as many as there is room for, and count the others. -/
structure Holds (n : Notices) (texts : List String) : Prop where
  queue : n.queue = texts.drop (texts.length - capacity)
  dropped : n.dropped = texts.length - capacity

namespace Holds

variable {n : Notices} {texts : List String}

theorem size_eq (h : n.Holds texts) : n.size = min texts.length capacity := by
  rw [size, h.queue, List.length_drop]
  omega

theorem enqueue (h : n.Holds texts) (text : String) : (n.enqueue text).Holds (texts ++ [text]) := by
  have length : (texts ++ [text]).length = texts.length + 1 := List.length_append
  have size := h.size_eq
  unfold Notices.size at size
  by_cases full : n.queue.length = capacity
  · -- the oldest text makes room, and is one more that was dropped
    have more : texts.length + 1 - capacity = texts.length - capacity + 1 := by omega
    have shifted : (texts.drop (texts.length - capacity)).tail = texts.drop (texts.length - capacity + 1) :=
      List.tail_drop
    have inside : texts.length - capacity + 1 ≤ texts.length := by
      unfold capacity at *
      omega
    rw [Notices.enqueue, if_pos full]
    refine ⟨?_, ?_⟩
    · rw [length, more, List.drop_append_of_le_length inside, h.queue, shifted]
    · rw [length, more, h.dropped]
  · have none : texts.length + 1 - capacity = 0 := by omega
    have before : texts.length - capacity = 0 := by omega
    rw [Notices.enqueue, if_neg full]
    refine ⟨?_, ?_⟩
    · rw [length, none, h.queue, before, List.drop_zero, List.drop_zero]
    · rw [length, none, h.dropped, before]

theorem answer (h : n.Holds texts) :
    (if n.dropped = 0 then [] else [toString n.dropped ++ " older notifications dropped"]) ++ n.queue =
      (if capacity < texts.length then
          [toString (texts.length - capacity) ++ " older notifications dropped"] else []) ++
        texts.drop (texts.length - capacity) := by
  rw [h.queue, h.dropped]
  by_cases many : capacity < texts.length
  · rw [if_neg (by omega), if_pos many]
  · rw [if_pos (by omega), if_neg many]

end Holds

/-- The notices are a view of a stream. -/
structure Views (n : Notices) (s : Feed) : Prop where
  run : n.lastFault = s.run
  pending : n.repeats = s.pending
  holds : n.Holds (s.waiting.map FeedEntry.text)

@[simp] theorem enqueue_repeats (n : Notices) (text : String) : (n.enqueue text).repeats = n.repeats := by
  unfold enqueue
  split_ifs <;> rfl

@[simp] theorem flush_repeats (n : Notices) : n.flush.repeats = 0 := by
  unfold flush
  by_cases none : n.repeats = 0
  · rw [if_pos none, none]
  · rw [if_neg none, enqueue_repeats]

namespace Views

variable {n : Notices} {s : Feed}

theorem flush (h : n.Views s) : n.flush.Holds ((s.waiting ++ s.overdue).map FeedEntry.text) := by
  unfold Notices.flush Feed.overdue
  rw [h.pending]
  by_cases none : s.pending = 0
  · rw [if_pos none, if_pos none, List.append_nil]
    exact h.holds
  · have told : { n with repeats := 0 }.Holds (s.waiting.map FeedEntry.text) := ⟨h.holds.queue, h.holds.dropped⟩
    rw [if_neg none, if_neg none, List.map_append]
    exact told.enqueue _

theorem appended (h : n.Views s) (e : FeedEntry) :
    (n.flush.enqueue e.text).Holds ((s.waiting ++ (s.overdue ++ [e])).map FeedEntry.text) := by
  rw [← List.append_assoc, List.map_append]
  exact h.flush.enqueue _

/-- **A dealing leaves the notices a view of the stream.** -/
theorem deal (h : n.Views s) (d : Dealing) : (n.deal d).Views (s.deal d) := by
  rcases d with (text | text) | _
  · have told : { n.flush with lastFault := none }.Holds ((s.waiting ++ s.overdue).map FeedEntry.text) :=
      ⟨h.flush.queue, h.flush.dropped⟩
    refine ⟨enqueue_lastFault _ _, ?_, ?_⟩
    · exact (enqueue_repeats _ _).trans (flush_repeats n)
    · have := told.enqueue (FeedEntry.message text).text
      rwa [← List.map_singleton, ← List.map_append, List.append_assoc] at this
  · by_cases again : s.run = some text
    · have same : n.lastFault = some text := h.run.trans again
      rw [Notices.deal, fault, if_pos same, Feed.deal, if_pos again]
      exact ⟨h.run, congrArg (· + 1) h.pending, ⟨h.holds.queue, h.holds.dropped⟩⟩
    · have other : n.lastFault ≠ some text := h.run ▸ again
      rw [Notices.deal, fault, if_neg other, Feed.deal, if_neg again, Feed.appends, if_neg again]
      refine ⟨rfl, ?_, ?_⟩
      · exact (enqueue_repeats _ _).trans (flush_repeats n)
      · exact ⟨(h.appended (.fault text)).queue, (h.appended (.fault text)).dropped⟩
  · exact ⟨(flush_lastFault n).trans h.run, flush_repeats n, rfl, rfl⟩

end Views

theorem views_foldl (ds : List Dealing) {n : Notices} {s : Feed} (h : n.Views s) :
    (ds.foldl Notices.deal n).Views (ds.foldl Feed.deal s) := by
  induction ds generalizing n s with
  | nil => exact h
  | cons d ds ih => exact ih (h.deal d)

theorem views_empty : empty.Views .empty := ⟨rfl, rfl, rfl, rfl⟩

/-- **Notices are a bounded view of a stream.** Whatever they were told and however often the page took
them, a fault is new exactly if it is appended to the stream. As many notices wait as were appended since the
page last took any, but never more than there is room for. The page gets the last of these, those
repetitions included that are appended as it takes them, and in front of them the number of the others if
there are any. And each fault ever told is in an entry of the stream, or among the repetitions not yet told. -/
theorem bounded_view (ds : List Dealing) :
    let n := ds.foldl Notices.deal .empty
    let s := ds.foldl Feed.deal .empty
    let texts := (s.waiting ++ s.appends .take).map FeedEntry.text
    (∀ text, (n.fault text).1 = true ↔ .fault text ∈ s.appends (.note (.fault text))) ∧
      n.size ≤ 64 ∧ n.size = min 64 s.waiting.length ∧
      n.take.1 = (if 64 < texts.length then
          [toString (texts.length - 64) ++ " older notifications dropped"] else []) ++
        texts.drop (texts.length - 64) ∧
      ds.countP Dealing.isFault = Feed.told s.entries + s.pending := by
  intro n s texts
  have views : n.Views s := views_foldl ds views_empty
  have size : n.size = min 64 s.waiting.length := by
    rw [views.holds.size_eq, List.length_map, Nat.min_comm]
    rfl
  refine ⟨fun text => ?_, ?_, size, views.flush.answer, ?_⟩
  · by_cases again : s.run = some text
    · have same : n.lastFault = some text := views.run.trans again
      simp [fault, Feed.appends, same, again]
    · have other : n.lastFault ≠ some text := views.run ▸ again
      simp [fault, Feed.appends, other, again]
  · rw [size]
    exact Nat.min_le_left _ _
  · have told := Feed.told_foldl ds .empty
    change Feed.told s.entries + s.pending = 0 + ds.countP Dealing.isFault at told
    rw [Nat.zero_add] at told
    exact told.symm

end Notices

end EmulatorHost
