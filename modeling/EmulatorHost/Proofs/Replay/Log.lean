import EmulatorHost.Proofs.Session.Effect
import EmulatorHost.Replay.Wire
import Mathlib.Order.Defs.LinearOrder

/-!
# Input logs

* **`InputLog.firstUnordered?_eq_none_iff`**: no entry goes back exactly in ordered logs.
* **`InputLog.ofBytes_toBytes`**: a stored log reads back.
* `InputLog.eventsAt`, `InputLog.eventsBefore`: the events of a tick, and of all ticks before it.
* **`InputLog.eventsBefore_succ`**: tick by tick, they are all events in their order.
* `InputLog.entriesFrom_ne_nil_iff`: there are entries up to the tick of the last one.
-/

namespace EmulatorHost

namespace Wire

/-! ## Stored logs -/

theorem decodeEntry_encodeEntry (e : InputEntry) (rest : List UInt8) :
    decodeEntry.run (encodeEntry e ++ rest) = .ok (e, rest) := by
  have h : e.tick.toNat < Varint.Width.w64.bound := e.tick.toNat_lt
  simp [decodeEntry, encodeEntry, List.append_assoc, Varint.decode_encode h, decodeEvent_encodeEvent]

theorem decodeEntries_flatMap (es : List InputEntry) (rest : List UInt8) :
    (decodeEntries es.length).run (es.flatMap encodeEntry ++ rest) = .ok (es, rest) := by
  induction es with
  | nil => rfl
  | cons e es ih => simp [decodeEntries, List.append_assoc, decodeEntry_encodeEntry, ih]

theorem decodeLog_encodeLog {l : InputLog} (fits : l.size < UInt64.size) (rest : List UInt8) :
    decodeLog.run (encodeLog l ++ rest) = .ok (l, rest) := by
  have h : l.entries.length < Varint.Width.w64.bound := fits
  simp [decodeLog, encodeLog, InputLog.size, List.append_assoc, Varint.decode_encode h,
    decodeEntries_flatMap]

end Wire

namespace InputLog

variable {l : InputLog} {n : Nat}

/-- **No entry goes back exactly in ordered logs.** -/
theorem firstUnordered?_eq_none_iff : l.firstUnordered? = none ↔ l.Ordered := by
  obtain ⟨es⟩ := l
  unfold firstUnordered? Ordered
  rw [Option.map_eq_none_iff, List.findIdx?_eq_none_iff]
  induction es with
  | nil => simp
  | cons e es ih =>
    cases es with
    | nil => simp
    | cons f es =>
      simp only [List.tail_cons, List.zip_cons_cons, List.forall_mem_cons] at ih ⊢
      rw [ih, List.pairwise_cons (a := e), decide_eq_false_iff_not, UInt64.not_lt]
      constructor
      · rintro ⟨first, sorted⟩
        refine ⟨fun g hg => ?_, sorted⟩
        rcases List.mem_cons.mp hg with rfl | hg
        · exact first
        · exact UInt64.le_trans first ((List.pairwise_cons.mp sorted).1 g hg)
      · rintro ⟨all, sorted⟩
        exact ⟨all f List.mem_cons_self, sorted⟩

/-- **A stored log reads back.** The number of entries of a log in memory fits 64 bits. -/
theorem ofBytes_toBytes (ordered : l.Ordered) (fits : l.size < UInt64.size) : ofBytes l.toBytes = .ok l := by
  have h := Wire.decodeLog_encodeLog fits []
  rw [List.append_nil] at h
  rw [ofBytes, toBytes, h]
  dsimp only
  rw [firstUnordered?_eq_none_iff.mpr ordered]

/-! ## Logs tick by tick -/

/-- The events of a tick. -/
def eventsAt (l : InputLog) (n : Nat) : List ButtonEvent :=
  (l.entries.filter fun e => e.tick.toNat = n).map (·.event)

/-- The events of all ticks before a tick. -/
def eventsBefore (l : InputLog) (n : Nat) : List ButtonEvent :=
  (l.entries.filter fun e => e.tick.toNat < n).map (·.event)

/-- The entries from a tick on. -/
def entriesFrom (l : InputLog) (n : Nat) : List InputEntry :=
  l.entries.filter fun e => n ≤ e.tick.toNat

/-- The log with an event added at a tick. -/
def add (l : InputLog) (n : Nat) (e : ButtonEvent) : InputLog := ⟨l.entries ++ [⟨UInt64.ofNat n, e⟩]⟩

@[simp] theorem entriesFrom_zero (l : InputLog) : l.entriesFrom 0 = l.entries := by simp [entriesFrom]

@[simp] theorem eventsBefore_zero (l : InputLog) : l.eventsBefore 0 = [] := by simp [eventsBefore]

theorem takeWhile_of_sorted {es : List InputEntry} (h : es.Pairwise fun x y => x.tick ≤ y.tick) (n : Nat) :
    es.takeWhile (fun e => e.tick.toNat ≤ n) = es.filter (fun e => e.tick.toNat ≤ n) ∧
      es.dropWhile (fun e => e.tick.toNat ≤ n) = es.filter (fun e => n < e.tick.toNat) := by
  induction es with
  | nil => exact ⟨rfl, rfl⟩
  | cons e es ih =>
    obtain ⟨first, sorted⟩ := List.pairwise_cons.mp h
    obtain ⟨take, drop⟩ := ih sorted
    by_cases he : e.tick.toNat ≤ n
    · have : ¬ n < e.tick.toNat := Nat.not_lt.mpr he
      simp [he, this, take, drop]
    · have later : ∀ f ∈ e :: es, n < f.tick.toNat := by
        rintro f (_ | ⟨_, hf⟩)
        · exact Nat.not_le.mp he
        · exact Nat.lt_of_lt_of_le (Nat.not_le.mp he) (UInt64.le_iff_toNat_le.mp (first f hf))
      rw [List.takeWhile_cons_of_neg (by simpa using he), List.dropWhile_cons_of_neg (by simpa using he)]
      refine ⟨(List.filter_eq_nil_iff.mpr fun f hf => ?_).symm, (List.filter_eq_self.mpr fun f hf => ?_).symm⟩
      · simpa using later f hf
      · simpa using later f hf

theorem filter_lt_succ (h : l.Ordered) (n : Nat) :
    l.entries.filter (fun e => e.tick.toNat < n + 1) =
      l.entries.filter (fun e => e.tick.toNat < n) ++ l.entries.filter (fun e => e.tick.toNat = n) := by
  obtain ⟨es⟩ := l
  change es.Pairwise _ at h
  induction es with
  | nil => rfl
  | cons e es ih =>
    obtain ⟨first, sorted⟩ := List.pairwise_cons.mp h
    have rest : es.filter (fun f => f.tick.toNat < n + 1) =
        es.filter (fun f => f.tick.toNat < n) ++ es.filter (fun f => f.tick.toNat = n) := ih sorted
    rcases Nat.lt_trichotomy e.tick.toNat n with before | now | after
    · rw [List.filter_cons_of_pos (by simpa using Nat.lt_succ_of_lt before),
        List.filter_cons_of_pos (by simpa using before),
        List.filter_cons_of_neg (by simpa using Nat.ne_of_lt before), rest, List.cons_append]
    · have none : es.filter (fun f => f.tick.toNat < n) = [] := by
        refine List.filter_eq_nil_iff.mpr fun f hf => ?_
        have later := UInt64.le_iff_toNat_le.mp (first f hf)
        simp
        omega
      rw [List.filter_cons_of_pos (by simpa using Nat.lt_succ_of_le (Nat.le_of_eq now)),
        List.filter_cons_of_neg (by simpa using Nat.not_lt.mpr (Nat.le_of_eq now.symm)),
        List.filter_cons_of_pos (by simpa using now), rest, none, List.nil_append, List.nil_append]
    · rw [List.filter_cons_of_neg (by simpa using Nat.succ_le_of_lt after),
        List.filter_cons_of_neg (by simpa using Nat.le_of_lt after),
        List.filter_cons_of_neg (by simpa using Nat.ne_of_gt after), rest]

/-- **Tick by tick, the events come in their order.** -/
theorem eventsBefore_succ (h : l.Ordered) (n : Nat) :
    l.eventsBefore (n + 1) = l.eventsBefore n ++ l.eventsAt n := by
  unfold eventsBefore eventsAt
  rw [filter_lt_succ h, List.map_append]

theorem eventsAt_add (fits : n < UInt64.size) (e : ButtonEvent) :
    (l.add n e).eventsAt n = l.eventsAt n ++ [e] := by
  have tick : (UInt64.ofNat n).toNat = n := UInt64.toNat_ofNat_of_lt' fits
  simp [eventsAt, add, List.filter_append, tick]

theorem eventsAt_add_of_lt {m : Nat} (h : m < n) (fits : n < UInt64.size) (e : ButtonEvent) :
    (l.add n e).eventsAt m = l.eventsAt m := by
  have tick : (UInt64.ofNat n).toNat = n := UInt64.toNat_ofNat_of_lt' fits
  simp [eventsAt, add, List.filter_append, tick, Nat.ne_of_gt h]

theorem eventsBefore_add_of_le {m : Nat} (h : m ≤ n) (fits : n < UInt64.size) (e : ButtonEvent) :
    (l.add n e).eventsBefore m = l.eventsBefore m := by
  have tick : (UInt64.ofNat n).toNat = n := UInt64.toNat_ofNat_of_lt' fits
  simp [eventsBefore, add, List.filter_append, tick, Nat.not_lt.mpr h]

theorem eventsBefore_add (fits : n < UInt64.size) (e : ButtonEvent) :
    (l.add n e).eventsBefore (n + 1) = l.eventsBefore (n + 1) ++ [e] := by
  have tick : (UInt64.ofNat n).toNat = n := UInt64.toNat_ofNat_of_lt' fits
  simp [eventsBefore, add, List.filter_append, tick]

theorem eventsAt_of_lt (h : ∀ e ∈ l.entries, e.tick.toNat < n) : l.eventsAt n = [] := by
  rw [eventsAt, List.map_eq_nil_iff, List.filter_eq_nil_iff]
  intro e he
  simpa using Nat.ne_of_lt (h e he)

theorem entriesFrom_split (h : l.Ordered) (n : Nat) :
    ((l.entriesFrom n).takeWhile fun e => e.tick.toNat ≤ n).map (·.event) = l.eventsAt n ∧
      (l.entriesFrom n).dropWhile (fun e => e.tick.toNat ≤ n) = l.entriesFrom (n + 1) := by
  obtain ⟨take, drop⟩ := takeWhile_of_sorted (h.filter fun e => n ≤ e.tick.toNat) n
  unfold entriesFrom eventsAt
  rw [take, drop, List.filter_filter, List.filter_filter]
  refine ⟨congrArg _ (List.filter_congr fun e _ => ?_), List.filter_congr fun e _ => ?_⟩
  · rw [← Bool.decide_and, decide_eq_decide]
    omega
  · rw [← Bool.decide_and, decide_eq_decide]
    omega

theorem tick_le_last (h : l.Ordered) {e last : InputEntry} (ends : l.entries.getLast? = some last)
    (member : e ∈ l.entries) : e.tick.toNat ≤ last.tick.toNat := by
  obtain ⟨front, split⟩ := List.getLast?_eq_some_iff.mp ends
  unfold Ordered at h
  rw [split] at h member
  rcases List.mem_append.mp member with before | this
  · exact UInt64.le_iff_toNat_le.mp ((List.pairwise_append.mp h).2.2 e before last List.mem_cons_self)
  · obtain rfl := List.mem_singleton.mp this
    exact Nat.le_refl _

theorem entriesFrom_ne_nil_iff (h : l.Ordered) {last : InputEntry} (ends : l.entries.getLast? = some last) :
    l.entriesFrom n ≠ [] ↔ n ≤ last.tick.toNat := by
  unfold entriesFrom
  rw [Ne, List.filter_eq_nil_iff]
  constructor
  · intro some
    by_contra later
    refine some fun e member => ?_
    have early := tick_le_last h ends member
    simpa using (by omega : e.tick.toNat < n)
  · exact fun early none => none last (List.mem_of_getLast? ends) (by simpa using early)

end InputLog

end EmulatorHost
