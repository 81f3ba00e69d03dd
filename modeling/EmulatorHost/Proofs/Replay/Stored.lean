import EmulatorHost.Proofs.Replay.Log

/-!
# Stored logs and what is left of them

A stored log ends where it says it ends: bytes after it are not looked at, and a log that was cut off
is never taken for a shorter one.

* `Wire.NeedsAll`: a reader runs out of bytes wherever they are cut off, with its rule
  **`Wire.NeedsAll.andThen`** for one reader after another.
* `InputLog.pushAll?`: the log that entries make, pushed one by one; **`InputLog.pushAll?_empty`**.
* **`InputLog.ofBytes_exactly`**: a stored log reads back in front of any bytes, and no part of it reads.
-/

namespace EmulatorHost

namespace Wire

/-! ## Readers that need all their bytes -/

/-- Wherever the bytes are cut off, a reader runs out, and it misses no more than what was cut off. -/
def NeedsAll {α : Type} (r : Reader α) (bytes : List UInt8) : Prop :=
  ∀ front, front <+: bytes → front.length < bytes.length →
    ∃ missing, r.run front = .error (.unexpectedEnd missing) ∧ 0 < missing ∧
      front.length + missing ≤ bytes.length

variable {α β : Type} {r : Reader α} {k : α → Reader β} {xs ys : List UInt8} {a : α}

theorem NeedsAll.nil (r : Reader α) : NeedsAll r [] :=
  fun _ _ short => absurd short (Nat.not_lt_zero _)

/-- A reader that runs out does so whatever would have come next. -/
theorem NeedsAll.bind (h : NeedsAll r xs) (k : α → Reader β) : NeedsAll (r >>= k) xs := by
  intro front part short
  obtain ⟨missing, runsOut, some, fits⟩ := h front part short
  refine ⟨missing, ?_, some, fits⟩
  rw [StateT.run_bind, runsOut]
  rfl

/-- **One reader after another** needs the bytes of both, where the first leaves the bytes of the second. -/
theorem NeedsAll.andThen (reads : ∀ rest, r.run (xs ++ rest) = .ok (a, rest)) (first : NeedsAll r xs)
    (second : NeedsAll (k a) ys) : NeedsAll (r >>= k) (xs ++ ys) := by
  intro front part short
  rw [List.length_append] at short ⊢
  rcases Nat.lt_or_ge front.length xs.length with inFirst | pastFirst
  · have part' : front <+: xs :=
      List.prefix_of_prefix_length_le part (List.prefix_append xs ys) (Nat.le_of_lt inFirst)
    obtain ⟨missing, runsOut, some, fits⟩ := first.bind k front part' inFirst
    exact ⟨missing, runsOut, some, by omega⟩
  · obtain ⟨rest, rfl⟩ := List.prefix_of_prefix_length_le (List.prefix_append xs ys) part pastFirst
    have part' : rest <+: ys := (List.prefix_append_right_inj xs).mp part
    rw [List.length_append] at short ⊢
    obtain ⟨missing, runsOut, some, fits⟩ := second rest part' (by omega)
    refine ⟨missing, ?_, some, by omega⟩
    rw [StateT.run_bind, reads, ok_bind, runsOut]

theorem byte_needsAll (b : UInt8) : NeedsAll byte [b] := by
  intro front part short
  have none : front = [] := List.length_eq_zero_iff.mp (Nat.lt_one_iff.mp short)
  subst none
  exact ⟨1, rfl, Nat.one_pos, Nat.le_refl 1⟩

theorem take_needsAll {n : Nat} (h : xs.length = n) : NeedsAll (take n) xs := by
  subst h
  intro front part short
  refine ⟨xs.length - front.length, ?_, by omega, by omega⟩
  simp [take, StateT.run, Nat.not_le.mpr short]

/-! ## Stored values -/

theorem payload_needsAll (n v : Nat) : NeedsAll (Varint.payload n) (littleEndian n v) :=
  (take_needsAll (littleEndian_length n v)).bind _

theorem number_needsAll {w : Varint.Width} {n : Nat} (h : n < w.bound) :
    NeedsAll (Varint.decode w) (Varint.encode n) := by
  have tagged : ∀ (tag : UInt8) (bytes : List UInt8) (next : UInt8 → Reader Nat),
      NeedsAll (next tag) bytes → NeedsAll (byte >>= next) ([tag] ++ bytes) :=
    fun tag bytes next rest => .andThen (fun _ => rfl) (byte_needsAll tag) rest
  unfold Varint.encode
  split
  · exact (byte_needsAll _).bind _
  · split
    · exact tagged 251 (littleEndian 2 n) _ (by simpa using payload_needsAll 2 n)
    · split
      · exact tagged 252 (littleEndian 4 n) _ (by simpa using payload_needsAll 4 n)
      · next wide =>
        cases w with
        | w32 => exact absurd h wide
        | w64 => exact tagged 253 (littleEndian 8 n) _ (by simpa using payload_needsAll 8 n)

theorem button_needsAll (x : Button) : NeedsAll decodeButton (encodeButton x) :=
  (number_needsAll (Nat.lt_trans x.index_lt (by decide))).bind _

theorem edge_needsAll (e : Edge) : NeedsAll decodeEdge (encodeEdge e) :=
  (number_needsAll (by cases e <;> decide)).bind _

theorem event_needsAll (e : ButtonEvent) : NeedsAll decodeEvent (encodeEvent e) :=
  .andThen (decodeButton_encodeButton e.button) (button_needsAll e.button) ((edge_needsAll e.edge).bind _)

theorem entry_needsAll (e : InputEntry) : NeedsAll decodeEntry (encodeEntry e) := by
  have fits : e.tick.toNat < Varint.Width.w64.bound := e.tick.toNat_lt
  exact .andThen (Varint.decode_encode fits) (number_needsAll fits) ((event_needsAll e.event).bind _)

theorem entries_needsAll (es : List InputEntry) :
    NeedsAll (decodeEntries es.length) (es.flatMap encodeEntry) := by
  induction es with
  | nil => exact .nil _
  | cons e es ih => exact .andThen (decodeEntry_encodeEntry e) (entry_needsAll e) (ih.bind _)

theorem log_needsAll {l : InputLog} (fits : l.size < UInt64.size) : NeedsAll decodeLog (encodeLog l) :=
  .andThen (Varint.decode_encode (w := .w64) fits) (number_needsAll fits) ((entries_needsAll l.entries).bind _)

end Wire

namespace InputLog

variable {l m : InputLog} {es : List InputEntry}

/-! ## Logs made by pushing -/

/-- The entries pushed one by one, unless the tick of one goes back. -/
def pushAll? (l : InputLog) (es : List InputEntry) : Option InputLog :=
  es.foldlM (fun l e => l.push? e.tick e.event) l

@[simp] theorem pushAll?_nil (l : InputLog) : l.pushAll? [] = some l := rfl

@[simp] theorem pushAll?_cons (l : InputLog) (e : InputEntry) (es : List InputEntry) :
    l.pushAll? (e :: es) = (l.push? e.tick e.event).bind (·.pushAll? es) := rfl

theorem accepts_iff {e : InputEntry} (ordered : l.Ordered) : l.accepts e.tick ↔ Ordered ⟨l.entries ++ [e]⟩ := by
  have all : Ordered ⟨l.entries ++ [e]⟩ ↔ ∀ x ∈ l.entries, x.tick ≤ e.tick := by
    simp [Ordered, List.pairwise_append, show l.entries.Pairwise _ from ordered]
  rw [all]
  obtain ⟨xs⟩ := l
  rcases List.eq_nil_or_concat xs with rfl | ⟨init, last, rfl⟩
  · simp [accepts]
  · rw [List.concat_eq_append] at ordered ⊢
    have upToLast := (List.pairwise_append.mp ordered).2.2
    simp only [accepts, List.getLast?_concat, decide_eq_true_eq]
    constructor
    · intro accepted x hx
      rcases List.mem_append.mp hx with inInit | isLast
      · exact UInt64.le_trans (upToLast x inInit last List.mem_cons_self) accepted
      · exact List.mem_singleton.mp isLast ▸ accepted
    · exact fun h => h last (List.mem_append_right init List.mem_cons_self)

/-- **Pushing succeeds exactly for ordered ticks**, and then adds all entries in their order. -/
theorem pushAll?_eq_some_iff (ordered : l.Ordered) :
    l.pushAll? es = some m ↔ m.entries = l.entries ++ es ∧ m.Ordered := by
  induction es generalizing l with
  | nil =>
    rw [pushAll?_nil, Option.some.injEq, List.append_nil]
    constructor
    · rintro rfl
      exact ⟨rfl, ordered⟩
    · exact fun h => InputLog.ext h.1.symm
  | cons e es ih =>
    rw [pushAll?_cons, push?]
    by_cases accepted : l.accepts e.tick
    · rw [if_pos accepted, Option.bind_some, ih ((accepts_iff ordered).mp accepted), List.append_assoc]
      rfl
    · rw [if_neg accepted, Option.bind_none]
      refine ⟨(nomatch ·), fun ⟨same, sorted⟩ => absurd ?_ accepted⟩
      have front : l.entries ++ [e] <+: m.entries := ⟨es, by rw [same, List.append_assoc]; rfl⟩
      exact (accepts_iff ordered).mpr (List.Pairwise.sublist front.sublist sorted)

theorem pushAll?_empty : empty.pushAll? es = some l ↔ l.entries = es ∧ l.Ordered :=
  pushAll?_eq_some_iff List.Pairwise.nil

/-! ## Logs in stored bytes -/

/-- **A stored log reads back in front of any bytes, and no part of it reads.** Cut off anywhere, it misses
bytes, and no more than were cut off. The number of entries of a log in memory fits 64 bits. -/
theorem ofBytes_exactly (pushed : empty.pushAll? es = some l) (fits : l.size < UInt64.size) :
    (∀ more, ofBytes (l.toBytes ++ more) = .ok l) ∧
      ∀ part, part <+: l.toBytes → part ≠ l.toBytes →
        ∃ missing, ofBytes part = .error (.decode (.unexpectedEnd missing)) ∧ 0 < missing ∧
          part.length + missing ≤ l.toBytes.length := by
  have ordered : l.Ordered := (pushAll?_empty.mp pushed).2
  constructor
  · intro more
    rw [ofBytes, toBytes, Wire.decodeLog_encodeLog fits]
    dsimp only
    rw [firstUnordered?_eq_none_iff.mpr ordered]
  · intro part front proper
    have short : part.length < l.toBytes.length :=
      Nat.lt_of_le_of_ne front.length_le fun same => proper (front.eq_of_length same)
    obtain ⟨missing, runsOut, some, rest⟩ := Wire.log_needsAll fits part front short
    refine ⟨missing, ?_, some, rest⟩
    rw [ofBytes, runsOut]

/-- Entries whose ticks take one, three, five and nine bytes, two of them at the same tick. -/
def tickSizes : List InputEntry :=
  [⟨0, ⟨.a, .press⟩⟩, ⟨300, ⟨.start, .press⟩⟩, ⟨300, ⟨.a, .release⟩⟩, ⟨70000, ⟨.start, .release⟩⟩,
    ⟨1099511627776, ⟨.right, .press⟩⟩]

theorem ofBytes_exactly_tickSizes :
    empty.pushAll? tickSizes = some ⟨tickSizes⟩ ∧
      (∀ more, ofBytes (toBytes ⟨tickSizes⟩ ++ more) = .ok ⟨tickSizes⟩) ∧
      ∀ part, part <+: toBytes ⟨tickSizes⟩ → part ≠ toBytes ⟨tickSizes⟩ →
        ∃ missing, ofBytes part = .error (.decode (.unexpectedEnd missing)) ∧ 0 < missing ∧
          part.length + missing ≤ (toBytes ⟨tickSizes⟩).length := by
  have pushed : empty.pushAll? tickSizes = some ⟨tickSizes⟩ := pushAll?_empty.mpr ⟨rfl, by decide⟩
  exact ⟨pushed, ofBytes_exactly pushed (by decide)⟩

end InputLog

end EmulatorHost
