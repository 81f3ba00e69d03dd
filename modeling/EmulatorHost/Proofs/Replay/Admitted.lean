import EmulatorHost.Proofs.Replay.Stored

/-!
# Which logs are admitted

Entries pushed one by one and stored bytes that are read pass the same test of order. Stored bytes may be
longer than they have to be, and what was read of them is written in its shortest form.

* `Wire.Spends`: what holds of the bytes that a reader uses up and of what it reads, with its rule
  **`Wire.Spends.andThen`** for one reader after another.
* `Wire.log_spends`: a log that was read is written in no more bytes.
* **`InputLog.firstUnordered?_eq_some`**: the first entry that goes back is the first whose push is refused.
* `InputLog.Made`: a log that was pushed together or read; **`InputLog.Made.ordered`**.
* **`InputLog.ofBytes_admits`**: bytes are read as a log exactly if its entries can be pushed.
-/

namespace EmulatorHost

namespace Wire

/-! ## What a reader uses up -/

/-- Whatever a reader reads, it uses up bytes at the front, and `P` holds of them and of what it read. -/
def Spends {α : Type} (r : Reader α) (P : List UInt8 → α → Prop) : Prop :=
  ∀ bytes a rest, r.run bytes = .ok (a, rest) → ∃ used, bytes = used ++ rest ∧ P used a

variable {α β : Type} {r : Reader α} {k : α → Reader β} {P P' : List UInt8 → α → Prop}
  {Q : List UInt8 → β → Prop}

namespace Spends

theorem imp (h : Spends r P) (weaker : ∀ used a, P used a → P' used a) : Spends r P' := by
  intro bytes a rest read
  obtain ⟨used, split, holds⟩ := h bytes a rest read
  exact ⟨used, split, weaker used a holds⟩

theorem of_return {a : α} (h : P [] a) : Spends (return a : Reader α) P := by
  intro bytes b rest read
  obtain ⟨rfl, rfl⟩ := Prod.mk.inj (Except.ok.inj read)
  exact ⟨[], rfl, h⟩

theorem of_throw (e : WireError) : Spends (throw e : Reader α) P := fun _ _ _ read => nomatch read

/-- **One reader after another**, where the second one may count on what holds of the first. -/
theorem andThen (first : Spends r P)
    (second : ∀ a, Spends (k a) fun used b => ∀ before, P before a → Q (before ++ used) b) :
    Spends (r >>= k) Q := by
  intro bytes b rest read
  rw [StateT.run_bind] at read
  cases h : r.run bytes with
  | error e =>
    rw [h] at read
    cases read
  | ok step =>
    obtain ⟨a, mid⟩ := step
    rw [h, ok_bind] at read
    obtain ⟨before, rfl, holds⟩ := first bytes a mid h
    obtain ⟨used, rfl, then_holds⟩ := second a mid b rest read
    exact ⟨before ++ used, by rw [List.append_assoc], then_holds before holds⟩

end Spends

theorem byte_spends : Spends byte fun used _ => used.length = 1 := by
  intro bytes b rest read
  cases bytes with
  | nil => cases read
  | cons c bytes =>
    cases read
    exact ⟨[b], rfl, rfl⟩

theorem take_spends (n : Nat) : Spends (take n) fun used bs => used = bs ∧ bs.length = n := by
  intro bytes bs rest read
  change (if n ≤ bytes.length then _ else _ : Except WireError _) = _ at read
  split_ifs at read with enough
  cases read
  exact ⟨bytes.take n, (List.take_append_drop n bytes).symm, rfl, List.length_take_of_le enough⟩

theorem value_lt (bs : List UInt8) : value bs < Nat.pow 256 bs.length := by
  induction bs with
  | nil => exact Nat.one_pos
  | cons b bs ih =>
    have low := b.toNat_lt
    rw [Nat.pow_eq] at ih
    rw [value, List.length_cons, Nat.pow_eq, Nat.pow_succ]
    omega

end Wire

namespace Varint

open Wire

/-! ## The shortest form -/

variable {n k : Nat}

theorem encode_length_of_lt (h : n < 251) : (encode n).length = 1 := by
  rw [encode, if_pos h]
  rfl

theorem encode_length_two (h : n < UInt16.size) : (encode n).length ≤ 3 := by
  unfold encode
  split_ifs <;> simp

theorem encode_length_four (h : n < UInt32.size) : (encode n).length ≤ 5 := by
  unfold encode
  split_ifs <;> simp

theorem encode_length_eight (n : Nat) : (encode n).length ≤ 9 := by
  unfold encode
  split_ifs <;> simp

theorem payload_spends (k : Nat) :
    Spends (payload k) fun used n => used.length = k ∧ n < Nat.pow 256 k := by
  refine (take_spends k).andThen fun bs => .of_return ?_
  rintro used ⟨rfl, rfl⟩
  rw [List.append_nil]
  exact ⟨rfl, value_lt used⟩

/-- **The form that a number is written in is no longer than any that reads as it.** -/
theorem decode_spends (w : Width) :
    Spends (decode w) fun used n => n < UInt64.size ∧ (encode n).length ≤ used.length := by
  refine byte_spends.andThen fun tag => ?_
  split_ifs with small two four eight
  · refine .of_return fun before one => ?_
    have fits : tag.toNat < 251 := UInt8.lt_iff_toNat_lt.mp small
    rw [List.append_nil, encode_length_of_lt fits, one]
    exact ⟨Nat.lt_trans fits (by decide), Nat.le_refl 1⟩
  · refine (payload_spends 2).imp fun used n ⟨length, fits⟩ before one => ?_
    rw [List.length_append, one, length]
    exact ⟨Nat.lt_trans fits (by decide), encode_length_two fits⟩
  · refine (payload_spends 4).imp fun used n ⟨length, fits⟩ before one => ?_
    rw [List.length_append, one, length]
    exact ⟨Nat.lt_trans fits (by decide), encode_length_four fits⟩
  · cases w with
    | w32 => exact .of_throw _
    | w64 =>
      refine (payload_spends 8).imp fun used n ⟨length, fits⟩ before one => ?_
      rw [List.length_append, one, length]
      exact ⟨fits, encode_length_eight n⟩
  all_goals
    intro bytes n rest read
    cases read

end Varint

namespace Wire

/-! ## Stored values that were read -/

theorem button_spends : Spends decodeButton fun used x => (encodeButton x).length ≤ used.length := by
  refine (Varint.decode_spends .w32).andThen fun i => ?_
  cases h : Button.ofIndex? i with
  | none => exact .of_throw _
  | some x =>
    refine .of_return fun before ⟨_, length⟩ => ?_
    rw [List.append_nil, encodeButton, Button.ofIndex?_eq_some_iff.mp h]
    exact length

theorem edge_spends : Spends decodeEdge fun used e => (encodeEdge e).length ≤ used.length := by
  refine (Varint.decode_spends .w32).andThen fun i => ?_
  cases h : Edge.ofIndex? i with
  | none => exact .of_throw _
  | some e =>
    refine .of_return fun before ⟨_, length⟩ => ?_
    have index : e.index = i := by
      unfold Edge.ofIndex? at h
      split at h <;> cases h <;> rfl
    rw [List.append_nil, encodeEdge, index]
    exact length

theorem event_spends : Spends decodeEvent fun used e => (encodeEvent e).length ≤ used.length := by
  refine button_spends.andThen fun button => edge_spends.andThen fun edge => ?_
  refine .of_return fun usedEdge edgeFits usedButton buttonFits => ?_
  rw [encodeEvent, List.append_nil, List.length_append, List.length_append]
  exact Nat.add_le_add buttonFits edgeFits

theorem entry_spends : Spends decodeEntry fun used e => (encodeEntry e).length ≤ used.length := by
  refine (Varint.decode_spends .w64).andThen fun tick => event_spends.andThen fun event => ?_
  refine .of_return fun usedEvent eventFits usedTick ⟨small, tickFits⟩ => ?_
  have same : (UInt64.ofNat tick).toNat = tick := UInt64.toNat_ofNat_of_lt' small
  rw [encodeEntry, List.append_nil, List.length_append, List.length_append, same]
  exact Nat.add_le_add tickFits eventFits

theorem entries_spends (n : Nat) : Spends (decodeEntries n) fun used es =>
    es.length = n ∧ (es.flatMap encodeEntry).length ≤ used.length := by
  induction n with
  | zero => exact .of_return ⟨rfl, Nat.le_refl 0⟩
  | succ n ih =>
    refine entry_spends.andThen fun e => ih.andThen fun es => ?_
    refine .of_return fun usedRest ⟨count, restFits⟩ usedFirst firstFits => ?_
    rw [List.append_nil, List.flatMap_cons, List.length_append, List.length_append]
    exact ⟨congrArg Nat.succ count, Nat.add_le_add firstFits restFits⟩

/-- **A log that was read is written in no more bytes.** -/
theorem log_spends : Spends decodeLog fun used l =>
    l.size < UInt64.size ∧ (encodeLog l).length ≤ used.length := by
  refine (Varint.decode_spends .w64).andThen fun n => (entries_spends n).andThen fun es => ?_
  refine .of_return fun usedEntries ⟨count, entriesFit⟩ usedCount ⟨small, countFits⟩ => ?_
  subst count
  rw [encodeLog, List.append_nil, List.length_append, List.length_append]
  exact ⟨small, Nat.add_le_add countFits entriesFit⟩

end Wire

namespace InputLog

variable {l m : InputLog} {es : List InputEntry}

/-! ## The first entry that is refused -/

/-- Where an entry goes back, the entries up to the first one that does are ordered without it, and are not
with it. -/
theorem exists_of_firstUnordered? {i : Nat} (found : l.firstUnordered? = some i) :
    ∃ front e back, l.entries = front ++ e :: back ∧ front.length = i ∧ Ordered ⟨front⟩ ∧
      ¬ Ordered ⟨front ++ [e]⟩ := by
  obtain ⟨es⟩ := l
  obtain ⟨j, position, rfl⟩ := Option.map_eq_some_iff.mp found
  clear found
  induction es generalizing j with
  | nil => cases position
  | cons e es ih =>
    cases es with
    | nil => cases position
    | cons f es =>
      dsimp only at position
      rw [List.tail_cons, List.zip_cons_cons, List.findIdx?_cons] at position
      split_ifs at position with goesBack
      · cases position
        refine ⟨[e], f, es, rfl, rfl, List.pairwise_singleton _ _, fun ordered => ?_⟩
        have first := (List.pairwise_cons.mp ordered).1 f List.mem_cons_self
        exact absurd first (UInt64.not_le.mpr (of_decide_eq_true goesBack))
      · obtain ⟨j, inRest, rfl⟩ := Option.map_eq_some_iff.mp position
        obtain ⟨front, g, back, split, length, ordered, refused⟩ := ih j inRest
        cases front with
        | nil => cases length
        | cons f' front =>
          obtain ⟨rfl, rfl⟩ := List.cons.inj split
          have forth : e.tick ≤ f.tick := by simpa using goesBack
          refine ⟨e :: f :: front, g, back, rfl, congrArg Nat.succ length, ?_, fun sorted => ?_⟩
          · refine List.pairwise_cons.mpr ⟨fun h member => ?_, ordered⟩
            rcases List.mem_cons.mp member with rfl | later
            · exact forth
            · exact UInt64.le_trans forth ((List.pairwise_cons.mp ordered).1 h later)
          · exact refused (List.pairwise_cons.mp sorted).2

/-- **The first entry that goes back is the first whose push is refused.** -/
theorem firstUnordered?_eq_some {i : Nat} (found : l.firstUnordered? = some i) :
    ∃ front e back m, l.entries = front ++ e :: back ∧ front.length = i ∧ empty.pushAll? front = some m ∧
      m.push? e.tick e.event = none := by
  obtain ⟨front, e, back, split, length, ordered, goesBack⟩ := exists_of_firstUnordered? found
  refine ⟨front, e, back, ⟨front⟩, split, length, pushAll?_empty.mpr ⟨rfl, ordered⟩, ?_⟩
  rw [push?, if_neg]
  exact fun accepted => goesBack ((accepts_iff ordered).mp accepted)

/-! ## Both ways in -/

/-- A log that was made: pushed together from nothing, or read, and perhaps pushed to again. -/
inductive Made : InputLog → Prop
  | empty : Made empty
  | pushed {l m : InputLog} {tick : UInt64} {event : ButtonEvent} (made : Made l)
      (push : l.push? tick event = some m) : Made m
  | read {bytes : List UInt8} {l : InputLog} (read : ofBytes bytes = .ok l) : Made l

theorem ordered_of_ofBytes {bytes : List UInt8} (read : ofBytes bytes = .ok l) : l.Ordered := by
  unfold ofBytes at read
  split at read
  · cases read
  · split at read
    · cases read
    · next decoded _ _ none =>
      cases read
      exact firstUnordered?_eq_none_iff.mp none

/-- **However a log was made, its ticks do not go back.** -/
theorem Made.ordered (made : Made l) : l.Ordered := by
  induction made with
  | empty => exact List.Pairwise.nil
  | @pushed l m tick event _ push ordered =>
    have pushed : l.pushAll? [⟨tick, event⟩] = some m := by simpa using push
    exact ((pushAll?_eq_some_iff ordered).mp pushed).2
  | read read => exact ordered_of_ofBytes read

/-- **Bytes are read as a log exactly if its entries can be pushed one by one.** What does not decode is an
error of decoding. Of what does, the entries are pushed into the very log that is read, or the error names
the first of them whose push is refused. A log that was read is read again from its own bytes, which are no
more than were used up. So whichever way a log was made, its ticks do not go back. -/
theorem ofBytes_admits (bytes : List UInt8) :
    (match Wire.decodeLog.run bytes with
      | .error cause => ofBytes bytes = .error (.decode cause)
      | .ok (decoded, rest) =>
        match empty.pushAll? decoded.entries with
        | some l => l = decoded ∧ ofBytes bytes = .ok l ∧ ofBytes l.toBytes = .ok l ∧
          ∃ used, bytes = used ++ rest ∧ l.toBytes.length ≤ used.length
        | none => ∃ front e back m, decoded.entries = front ++ e :: back ∧ empty.pushAll? front = some m ∧
          m.push? e.tick e.event = none ∧ ofBytes bytes = .error (.unordered front.length)) ∧
      ∀ l, Made l → l.Ordered := by
  refine ⟨?_, fun l made => made.ordered⟩
  cases decode : Wire.decodeLog.run bytes with
  | error cause =>
    dsimp only
    rw [ofBytes, decode]
  | ok step =>
    obtain ⟨decoded, rest⟩ := step
    obtain ⟨used, split, fits, shortest⟩ := Wire.log_spends bytes decoded rest decode
    dsimp only
    cases pushed : empty.pushAll? decoded.entries with
    | some l =>
      obtain ⟨same, ordered⟩ := pushAll?_empty.mp pushed
      obtain rfl : l = decoded := InputLog.ext same
      refine ⟨rfl, ?_, ofBytes_toBytes ordered fits, used, split, shortest⟩
      rw [ofBytes, decode]
      dsimp only
      rw [firstUnordered?_eq_none_iff.mpr ordered]
    | none =>
      cases found : decoded.firstUnordered? with
      | none =>
        have ordered := firstUnordered?_eq_none_iff.mp found
        cases pushed.symm.trans (pushAll?_empty.mpr ⟨rfl, ordered⟩)
      | some i =>
        obtain ⟨front, e, back, m, split, rfl, before, refused⟩ := firstUnordered?_eq_some found
        refine ⟨front, e, back, m, split, before, refused, ?_⟩
        rw [ofBytes, decode]
        dsimp only
        rw [found]

/-- Two entries of one tick, with numbers in more bytes than they need and a byte after the log. -/
def roomyBytes : List UInt8 := [251, 2, 0, 251, 5, 0, 0, 0, 252, 5, 0, 0, 0, 1, 1, 99]

/-- What the bytes hold. -/
def roomyLog : InputLog := ⟨[⟨5, .press .a⟩, ⟨5, .release .b⟩]⟩

theorem ofBytes_admits_roomyBytes :
    ofBytes roomyBytes = .ok roomyLog ∧ ofBytes roomyLog.toBytes = .ok roomyLog ∧
      (∃ used, roomyBytes = used ++ [99] ∧ roomyLog.toBytes.length ≤ used.length) ∧
      Made roomyLog ∧ roomyLog.Ordered := by
  have decoded : Wire.decodeLog.run roomyBytes = .ok (roomyLog, [99]) := rfl
  have pushed : empty.pushAll? roomyLog.entries = some roomyLog := pushAll?_empty.mpr ⟨rfl, by decide⟩
  obtain ⟨outcome, ordered⟩ := ofBytes_admits roomyBytes
  rw [decoded] at outcome
  dsimp only at outcome
  rw [pushed] at outcome
  obtain ⟨-, read, again, spent⟩ := outcome
  exact ⟨read, again, spent, .read read, ordered roomyLog (.read read)⟩

/-- Of two entries that go back, the first one is named. -/
example : ofBytes [4, 7, 0, 0, 7, 1, 0, 5, 0, 1, 2, 1, 1] = .error (.unordered 2) := rfl

end InputLog

end EmulatorHost
