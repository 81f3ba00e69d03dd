import EmulatorHost.Config.Basic
import EmulatorHost.Proofs.Keys.Matching
import Mathlib.Data.Char

/-!
# Which configured binding counts

Several configured keys may have one normal form. They are bound in the order of their bytes, so the greatest
of them counts, and whatever is bound afterwards counts before them.

* `utf8`: the bytes of a text; **`utf8_lt_iff`**: texts compare by their bytes as by their characters.
* `KeysAlike`: keys of one normal form; `KeyMap.get?_bindAll`: the last binding of a key like `k` answers `k`.
* `Bindings.mem_entries_iff`: the entries are what the keys are bound to.
* `Bindings.Greatest`: the greatest key like a given one; **`Bindings.lastBound_iff`**: its entry is the last one.
* **`KeyMap.ofBindings_greatest`**: it answers the given key, until a key like it is bound.
-/

namespace EmulatorHost

/-! ## The order of bytes -/

/-- The bytes of a text. -/
def utf8 (s : String) : List UInt8 := s.toUTF8.data.toList

theorem utf8_eq (s : String) : utf8 s = s.toList.flatMap String.utf8EncodeChar := by
  obtain ⟨cs, rfl⟩ : ∃ cs, s = String.ofList cs := ⟨s.toList, by simp⟩
  rw [utf8, String.toUTF8_eq_toByteArray, String.toByteArray_ofList, String.toList_ofList, List.utf8Encode]
  simp

/-- A lower character has lower bytes, whatever follows. -/
theorem utf8EncodeChar_lt {c d : Char} (less : c < d) (l m : List UInt8) :
    String.utf8EncodeChar c ++ l < String.utf8EncodeChar d ++ m := by
  have code (c : Char) : c.val.toNat < 0x110000 := by
    have valid := c.valid
    simp only [UInt32.isValidChar, Nat.isValidChar] at valid
    omega
  have hc := code c
  have hd := code d
  have less : c.val.toNat < d.val.toNat := less
  unfold String.utf8EncodeChar
  dsimp only
  generalize c.val.toNat = v at *
  generalize d.val.toNat = w at *
  -- the first byte tells the number of bytes, and all of them are digits of the number
  split_ifs <;>
    simp (disch := omega) only [List.cons_append, List.nil_append, List.cons_lt_cons_iff,
      UInt8.lt_iff_toNat_lt, ← UInt8.toNat_inj, UInt8.toNat_ofNat', Nat.mod_eq_of_lt] <;>
    omega

theorem append_lt_append_iff (front l m : List UInt8) : front ++ l < front ++ m ↔ l < m := by
  induction front with
  | nil => rfl
  | cons x front ih => simp [ih]

theorem flatMap_utf8EncodeChar_lt_iff (cs ds : List Char) :
    cs.flatMap String.utf8EncodeChar < ds.flatMap String.utf8EncodeChar ↔ cs < ds := by
  induction cs generalizing ds with
  | nil =>
    cases ds with
    | nil => simp
    | cons d ds =>
      obtain ⟨x, xs, bytes⟩ := List.exists_cons_of_ne_nil (String.utf8EncodeChar_ne_nil (c := d))
      simp [bytes]
  | cons c cs ih =>
    cases ds with
    | nil => simp
    | cons d ds =>
      rw [List.flatMap_cons, List.flatMap_cons, List.cons_lt_cons_iff]
      rcases lt_trichotomy c d with less | rfl | more
      · exact iff_of_true (utf8EncodeChar_lt less _ _) (.inl less)
      · rw [append_lt_append_iff, ih]
        simp
      · refine iff_of_false (List.lt_asymm (utf8EncodeChar_lt more _ _)) ?_
        rintro (less | ⟨rfl, -⟩)
        · exact lt_asymm more less
        · exact lt_irrefl _ more

/-- **Texts compare by their bytes as by their characters.** -/
theorem utf8_lt_iff (s t : String) : utf8 s < utf8 t ↔ s < t := by
  rw [utf8_eq, utf8_eq, flatMap_utf8EncodeChar_lt_iff, String.lt_iff]

theorem utf8_le_iff (s t : String) : utf8 s ≤ utf8 t ↔ s ≤ t := by
  rw [← List.not_lt, utf8_lt_iff, String.not_lt]

/-! ## Keys of one normal form -/

/-- Two keys that are kept under one form. -/
def KeysAlike (k l : String) : Prop := normalKey k = normalKey l

namespace KeyMap

/-- **The last binding of a key like `k` answers `k`.** Without one the answer is what it was before. -/
theorem get?_bindAll (m : KeyMap) (binds : List (String × Button)) (k : String) :
    (∀ x, LastBound KeysAlike binds k x → (m.bindAll binds).get? k = some x) ∧
      ((∀ e ∈ binds, ¬ KeysAlike e.1 k) → (m.bindAll binds).get? k = m.get? k) := by
  induction binds using List.reverseRecOn with
  | nil =>
    refine ⟨?_, fun _ => rfl⟩
    rintro x ⟨front, key, back, split, -⟩
    exact absurd split.symm (List.append_ne_nil_of_right_ne_nil front (List.cons_ne_nil _ back))
  | append_singleton binds e ih =>
    obtain ⟨last, never⟩ := ih
    rw [bindAll_concat, get?_bind]
    by_cases alike : KeysAlike e.1 k
    · rw [if_pos alike.symm]
      refine ⟨fun x bound => ?_, fun none => absurd alike (none e (by simp))⟩
      rcases LastBound.concat_iff.mp bound with ⟨-, same⟩ | ⟨unlike, -⟩
      · rw [same]
      · exact absurd alike unlike
    · rw [if_neg fun same => alike same.symm]
      refine ⟨fun x bound => ?_, fun none => never fun f member => none f (List.mem_append_left _ member)⟩
      rcases LastBound.concat_iff.mp bound with ⟨like, -⟩ | ⟨-, bound⟩
      · exact absurd like alike
      · exact last x bound

end KeyMap

/-! ## Configured keys -/

namespace Bindings

variable {b : Bindings} {k key : String} {x : Button}

/-- **The entries are what the keys are bound to.** -/
theorem mem_entries_iff : (key, x) ∈ b.entries ↔ b.get? key = some x := by
  rw [get?, List.lookup_eq_some_iff]
  constructor
  · intro member
    obtain ⟨front, back, split⟩ := List.mem_iff_append.mp member
    refine ⟨front, back, split, fun e before => ?_⟩
    have less : e.1 < key := by
      have sorted := split ▸ b.sorted
      exact (List.pairwise_append.mp sorted).2.2 e before (key, x) List.mem_cons_self
    have other : key ≠ e.1 := fun same => String.lt_irrefl key (same ▸ less)
    simpa using other
  · rintro ⟨front, back, split, -⟩
    simp [split]

/-- Of the configured keys that are kept under one form with `k`, `key` has the greatest bytes. -/
structure Greatest (b : Bindings) (k key : String) : Prop where
  bound : (b.get? key).isSome = true
  alike : KeysAlike key k
  greatest : ∀ l, (b.get? l).isSome = true → KeysAlike l k → utf8 l ≤ utf8 key

/-- **The entry of the greatest key is the last one.** -/
theorem lastBound_iff : KeyMap.LastBound KeysAlike b.entries k x ↔
    ∃ key, b.Greatest k key ∧ b.get? key = some x := by
  constructor
  · rintro ⟨front, key, back, split, alike, others⟩
    have bound : b.get? key = some x := mem_entries_iff.mp (by simp [split])
    refine ⟨key, ⟨by simp [bound], alike, fun l some like => ?_⟩, bound⟩
    obtain ⟨y, some⟩ := Option.isSome_iff_exists.mp some
    have member : (l, y) ∈ front ++ (key, x) :: back := split ▸ mem_entries_iff.mpr some
    rw [utf8_le_iff]
    rcases List.mem_append.mp member with before | after
    · have sorted := split ▸ b.sorted
      have less : l < key := (List.pairwise_append.mp sorted).2.2 _ before (key, x) List.mem_cons_self
      exact String.not_lt.mp fun more => String.lt_irrefl l (String.lt_trans less more)
    · rcases List.mem_cons.mp after with this | after
      · cases this
        exact String.le_refl key
      · exact absurd like (others _ after)
  · rintro ⟨key, greatest, bound⟩
    obtain ⟨front, back, split⟩ := List.mem_iff_append.mp (mem_entries_iff.mpr bound)
    refine ⟨front, key, back, split, greatest.alike, fun e after alike => ?_⟩
    have some : b.get? e.1 = some e.2 := mem_entries_iff.mp (by simp [split, after])
    have less : key < e.1 := by
      have sorted := split ▸ b.sorted
      exact (List.pairwise_cons.mp (List.pairwise_append.mp sorted).2.1).1 e after
    have most := (utf8_le_iff _ _).mp (greatest.greatest e.1 (by simp [some]) alike)
    exact String.not_lt.mpr most less

end Bindings

namespace KeyMap

theorem get?_ofBindings_eq_none_iff {b : Bindings} {k : String} :
    (ofBindings b).get? k = none ↔ ∀ key, KeysAlike key k → b.get? key = none := by
  obtain ⟨last, never⟩ := get?_bindAll empty b.entries k
  constructor
  · intro unanswered key alike
    by_contra some
    obtain ⟨y, some⟩ := Option.ne_none_iff_exists'.mp some
    obtain ⟨x, bound⟩ := (LastBound.exists_iff (R := KeysAlike) (k := k)).mpr
      ⟨(key, y), Bindings.mem_entries_iff.mpr some, alike⟩
    cases (last x bound).symm.trans unanswered
  · intro none
    refine never fun e member alike => ?_
    cases (Bindings.mem_entries_iff.mp member).symm.trans (none e.1 alike)

/-- **The greatest configured key like `k` answers `k`**, in the order of bytes, and nothing does if no key is
like it. It is the same for the key map of a configuration. And what is bound later answers the keys like it,
the last binding first, and leaves the answers for all other keys as they were. -/
theorem ofBindings_greatest (b : Bindings) (k : String) :
    (∀ x, (ofBindings b).get? k = some x ↔ ∃ key, b.Greatest k key ∧ b.get? key = some x) ∧
    ((ofBindings b).get? k = none ↔ ∀ key, KeysAlike key k → b.get? key = none) ∧
    (∀ c : Config, c.bindings = b → c.keyMap.get? k = (ofBindings b).get? k) ∧
    ∀ binds : List (String × Button),
      (∀ x, LastBound KeysAlike binds k x → ((ofBindings b).bindAll binds).get? k = some x) ∧
      ((∀ e ∈ binds, ¬ KeysAlike e.1 k) →
        ((ofBindings b).bindAll binds).get? k = (ofBindings b).get? k) := by
  obtain ⟨last, never⟩ := get?_bindAll empty b.entries k
  refine ⟨fun x => ?_, get?_ofBindings_eq_none_iff, ?_, fun binds => get?_bindAll _ binds k⟩
  · rw [← Bindings.lastBound_iff]
    refine ⟨fun answer => ?_, last x⟩
    have some : ∃ e ∈ b.entries, KeysAlike e.1 k := by
      by_contra none
      push Not at none
      cases answer.symm.trans (never none)
    obtain ⟨y, bound⟩ := LastBound.exists_iff.mpr some
    cases answer.symm.trans (last y bound)
    exact bound
  · rintro c rfl
    rfl

/-- The letter k in three ways, which are one key, and a longer key. -/
def threeKays : Bindings := .ofList [("\u212a", .up), ("k", .a), ("ArrowUp", .start), ("K", .b)]

/-- The sign of the kelvin has the greatest bytes. -/
theorem ofBindings_greatest_threeKays :
    (ofBindings threeKays).get? "k" = some .up ∧
      ((ofBindings threeKays).bindAll [("K", .left), ("x", .right)]).get? "\u212a" = some .left ∧
      ((ofBindings threeKays).bindAll [("K", .left), ("x", .right)]).get? "ArrowUp" = some .start := by
  obtain ⟨greatest, -⟩ := ofBindings_greatest threeKays "k"
  obtain ⟨-, -, -, later⟩ := ofBindings_greatest threeKays "\u212a"
  obtain ⟨-, -, -, others⟩ := ofBindings_greatest threeKays "ArrowUp"
  refine ⟨(greatest .up).mpr ⟨"\u212a", ⟨rfl, rfl, fun l bound _ => ?_⟩, rfl⟩, ?_, ?_⟩
  · obtain ⟨x, bound⟩ := Option.isSome_iff_exists.mp bound
    have member := Bindings.mem_entries_iff.mpr bound
    have entries : threeKays.entries =
        [("ArrowUp", .start), ("K", .b), ("k", .a), ("\u212a", .up)] := by decide
    rw [entries] at member
    simp only [List.mem_cons, Prod.mk.injEq, List.not_mem_nil, or_false] at member
    rcases member with ⟨rfl, -⟩ | ⟨rfl, -⟩ | ⟨rfl, -⟩ | ⟨rfl, -⟩ <;> rw [utf8_le_iff] <;> decide
  · exact (later [("K", .left), ("x", .right)]).1 .left
      ⟨[], "K", [("x", .right)], rfl, rfl, by simp [KeysAlike]; decide⟩
  · rw [(others [("K", .left), ("x", .right)]).2 (by simp [KeysAlike]; decide)]
    decide

end KeyMap

end EmulatorHost
