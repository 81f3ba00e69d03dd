import EmulatorHost.Keys.KeyMap
import Mathlib.Data.List.Induction

/-!
# Which keys match

A key map answers a key with the button that was bound last to a key of the same normal form. That is the
last matching key, but for one letter: the capital I with a dot is the one character whose lower case is
longer than a character, and it meets the key that spells its lower case.

* `lowerCase_eq_singleton`: every other character has a lower case of one character.
* `KeysMatch`: equal keys, and single characters of one lower case.
* **`normalKey_eq_iff`**: which keys have the same normal form.
* `KeyMap.AnswersLast`: a key map answers a key with the last binding of a related one.
* **`KeyMap.answersLast_meet`**: it does for keys that meet, and so for keys that match if the dotted pair is
  not used. `KeyMap.not_answersLast_match`: it does not if it is.
-/

namespace EmulatorHost

/-! ## Normal forms -/

/-- The capital I with a dot. -/
def dottedCapital : String := String.singleton 'İ'

/-- The small i and the dot above as two characters, which is the lower case of `dottedCapital`. -/
def dottedSmall : String := String.ofList ['i', '\u0307']

theorem lowerCase_eq_singleton {c : Char} (h : c ≠ 'İ') : ∃ d, lowerCase c = [d] := by
  rw [lowerCase, if_neg h]
  split
  · exact ⟨_, rfl⟩
  · exact ⟨_, rfl⟩

/-- Two keys match if they are equal, or both are one character and these have the same lower case. -/
def KeysMatch (k l : String) : Prop :=
  k = l ∨ ∃ c d, k = String.singleton c ∧ l = String.singleton d ∧ lowerCase c = lowerCase d

/-- One key is the capital I with a dot, and the other one is spelled as its lower case. -/
def DottedPair (k l : String) : Prop :=
  (k = dottedCapital ∧ l = dottedSmall) ∨ (k = dottedSmall ∧ l = dottedCapital)

instance (k l : String) : Decidable (DottedPair k l) := inferInstanceAs (Decidable (_ ∨ _))

/-- Two keys meet if they match, or are the dotted pair. -/
def KeysMeet (k l : String) : Prop := KeysMatch k l ∨ DottedPair k l

variable {k l : String} {c : Char}

theorem normalKey_singleton (c : Char) : normalKey (String.singleton c) = String.ofList (lowerCase c) := by
  simp [normalKey]

theorem normalKey_of_long (long : ∀ c, k ≠ String.singleton c) : normalKey k = k := by
  unfold normalKey
  split
  · next c single =>
    have same : k = String.singleton c := String.ext (by simpa using single)
    exact absurd same (long c)
  · rfl

/-- A key is one character, or it is its own normal form. -/
theorem singleton_or_long (k : String) : (∃ c, k = String.singleton c) ∨ ∀ c, k ≠ String.singleton c := by
  by_cases h : ∃ c, k = String.singleton c
  · exact .inl h
  · exact .inr fun c same => h ⟨c, same⟩

/-- A longer key is the normal form of a character only if that is the capital I with a dot. -/
theorem ofList_lowerCase_eq_iff (long : ∀ d, l ≠ String.singleton d) :
    String.ofList (lowerCase c) = l ↔ c = 'İ' ∧ l = dottedSmall := by
  constructor
  · intro same
    by_cases dotted : c = 'İ'
    · subst dotted
      exact ⟨rfl, same.symm⟩
    · obtain ⟨d, single⟩ := lowerCase_eq_singleton dotted
      rw [single] at same
      exact absurd same.symm (long d)
  · rintro ⟨rfl, rfl⟩
    rfl

theorem singleton_injective {c d : Char} (h : String.singleton c = String.singleton d) : c = d := by
  have := congrArg String.toList h
  simpa using this

theorem dottedSmall_long (c : Char) : dottedSmall ≠ String.singleton c := by
  intro same
  have := congrArg String.toList same
  simp [dottedSmall] at this

theorem KeysMatch.symm (h : KeysMatch k l) : KeysMatch l k := by
  rcases h with rfl | ⟨c, d, rfl, rfl, same⟩
  · exact .inl rfl
  · exact .inr ⟨d, c, rfl, rfl, same.symm⟩

theorem KeysMeet.symm (h : KeysMeet k l) : KeysMeet l k := by
  rcases h with same | ⟨rfl, rfl⟩ | ⟨rfl, rfl⟩
  · exact .inl same.symm
  · exact .inr (.inr ⟨rfl, rfl⟩)
  · exact .inr (.inl ⟨rfl, rfl⟩)

theorem normalKey_singleton_eq_iff (long : ∀ d, l ≠ String.singleton d) :
    normalKey (String.singleton c) = normalKey l ↔ KeysMeet (String.singleton c) l := by
  rw [normalKey_singleton, normalKey_of_long long, ofList_lowerCase_eq_iff long]
  constructor
  · rintro ⟨rfl, rfl⟩
    exact .inr (.inl ⟨rfl, rfl⟩)
  · rintro ((same | ⟨-, d, -, same, -⟩) | ⟨dotted, same⟩ | ⟨same, -⟩)
    · exact absurd same.symm (long c)
    · exact absurd same (long d)
    · exact ⟨singleton_injective dotted, same⟩
    · exact absurd same.symm (dottedSmall_long c)

/-- **Keys have the same normal form exactly if they meet.** -/
theorem normalKey_eq_iff : normalKey k = normalKey l ↔ KeysMeet k l := by
  rcases singleton_or_long k with ⟨c, rfl⟩ | long <;> rcases singleton_or_long l with ⟨d, rfl⟩ | longer
  · rw [normalKey_singleton, normalKey_singleton, String.ofList_inj]
    constructor
    · exact fun same => .inl (.inr ⟨c, d, rfl, rfl, same⟩)
    · rintro ((same | ⟨c', d', same, same', lower⟩) | ⟨-, same⟩ | ⟨same, -⟩)
      · rw [singleton_injective same]
      · rwa [singleton_injective same, singleton_injective same']
      · exact absurd same.symm (dottedSmall_long d)
      · exact absurd same.symm (dottedSmall_long c)
  · exact normalKey_singleton_eq_iff longer
  · rw [eq_comm, normalKey_singleton_eq_iff long]
    exact ⟨KeysMeet.symm, KeysMeet.symm⟩
  · rw [normalKey_of_long long, normalKey_of_long longer]
    constructor
    · exact fun same => .inl (.inl same)
    · rintro ((same | ⟨c, -, same, -⟩) | ⟨same, -⟩ | ⟨-, same⟩)
      · exact same
      · exact absurd same (long c)
      · exact absurd same (long 'İ')
      · exact absurd same (longer 'İ')

theorem keysMeet_iff_of_long (long : 1 < l.length) (other : l ≠ dottedSmall) : KeysMeet k l ↔ k = l := by
  have many (d : Char) : l ≠ String.singleton d := by
    rintro rfl
    simp at long
  constructor
  · rintro ((same | ⟨-, d, -, same, -⟩) | ⟨-, same⟩ | ⟨-, same⟩)
    · exact same
    · exact absurd same (many d)
    · exact absurd same other
    · exact absurd same (many 'İ')
  · exact fun same => .inl (.inl same)

/-! ## Answers of a key map -/

namespace KeyMap

/-- Binds keys one after the other. -/
def bindAll (m : KeyMap) (binds : List (String × Button)) : KeyMap :=
  binds.foldl (fun m e => m.bind e.1 e.2) m

theorem bindAll_concat (m : KeyMap) (binds : List (String × Button)) (e : String × Button) :
    m.bindAll (binds ++ [e]) = (m.bindAll binds).bind e.1 e.2 := List.foldl_append

/-- The last of some bindings whose key is related to `k` is to the button `x`. -/
def LastBound (R : String → String → Prop) (binds : List (String × Button)) (k : String) (x : Button) : Prop :=
  ∃ front key back, binds = front ++ (key, x) :: back ∧ R key k ∧ ∀ e ∈ back, ¬ R e.1 k

/-- One binding more is the last one if its key is related, and changes nothing otherwise. -/
theorem LastBound.concat_iff {R : String → String → Prop} {binds : List (String × Button)}
    {e : String × Button} {k : String} {x : Button} :
    LastBound R (binds ++ [e]) k x ↔ (R e.1 k ∧ e.2 = x) ∨ (¬ R e.1 k ∧ LastBound R binds k x) := by
  constructor
  · rintro ⟨front, key, back, split, related, others⟩
    rcases List.eq_nil_or_concat back with rfl | ⟨back, f, rfl⟩
    · obtain ⟨-, same⟩ := List.append_inj' split rfl
      cases same
      exact .inl ⟨related, rfl⟩
    · rw [List.concat_eq_append, ← List.cons_append, ← List.append_assoc] at split
      obtain ⟨rfl, same⟩ := List.append_inj' split rfl
      cases same
      rw [List.concat_eq_append] at others
      exact .inr ⟨others e (List.mem_append_right _ List.mem_cons_self), front, key, back, rfl, related,
        fun f member => others f (List.mem_append_left _ member)⟩
  · rintro (⟨related, rfl⟩ | ⟨unrelated, front, key, back, rfl, related, others⟩)
    · exact ⟨binds, e.1, [], rfl, related, nofun⟩
    · refine ⟨front, key, back ++ [e], by rw [List.append_assoc, List.cons_append], related, fun f member => ?_⟩
      rcases List.mem_append.mp member with before | this
      · exact others f before
      · rwa [List.mem_singleton.mp this]

namespace LastBound

variable {R S : String → String → Prop} {binds : List (String × Button)} {k : String} {x y : Button}

theorem unique (h : LastBound R binds k x) (h' : LastBound R binds k y) : x = y := by
  induction binds using List.reverseRecOn with
  | nil =>
    obtain ⟨front, key, back, split, -⟩ := h
    exact absurd split.symm (List.append_ne_nil_of_right_ne_nil front (List.cons_ne_nil _ back))
  | append_singleton binds e ih =>
    rw [concat_iff] at h h'
    rcases h with ⟨related, same⟩ | ⟨unrelated, h⟩ <;> rcases h' with ⟨related', same'⟩ | ⟨unrelated', h'⟩
    · exact same.symm.trans same'
    · exact absurd related unrelated'
    · exact absurd related' unrelated
    · exact ih h h'

theorem exists_iff : (∃ x, LastBound R binds k x) ↔ ∃ e ∈ binds, R e.1 k := by
  constructor
  · rintro ⟨x, front, key, back, rfl, related, -⟩
    exact ⟨(key, x), List.mem_append_right _ List.mem_cons_self, related⟩
  · induction binds using List.reverseRecOn with
    | nil => nofun
    | append_singleton binds e ih =>
      rintro ⟨f, member, related⟩
      by_cases this : R e.1 k
      · exact ⟨e.2, concat_iff.mpr (.inl ⟨this, rfl⟩)⟩
      · have before : f ∈ binds := by
          rcases List.mem_append.mp member with before | now
          · exact before
          · rw [List.mem_singleton.mp now] at related
            exact absurd related this
        obtain ⟨x, last⟩ := ih ⟨f, before, related⟩
        exact ⟨x, concat_iff.mpr (.inr ⟨this, last⟩)⟩

theorem congr (same : ∀ e ∈ binds, R e.1 k ↔ S e.1 k) (h : LastBound R binds k x) : LastBound S binds k x := by
  obtain ⟨front, key, back, rfl, related, others⟩ := h
  have last : (key, x) ∈ front ++ (key, x) :: back := List.mem_append_right _ List.mem_cons_self
  refine ⟨front, key, back, rfl, (same _ last).mp related, fun e member related => ?_⟩
  have later : e ∈ front ++ (key, x) :: back := List.mem_append_right _ (List.mem_cons_of_mem _ member)
  exact others e member ((same e later).mpr related)

end LastBound

/-- With keys bound one after the other, the key map answers `k` with the button of the last binding of a
related key, and not at all if there is none. -/
def AnswersLast (R : String → String → Prop) (binds : List (String × Button)) (k : String) : Prop :=
  (∀ x, (empty.bindAll binds).get? k = some x ↔ LastBound R binds k x) ∧
    ((empty.bindAll binds).get? k = none ↔ ∀ e ∈ binds, ¬ R e.1 k)

theorem answersLast_keysMeet (binds : List (String × Button)) (k : String) : AnswersLast KeysMeet binds k := by
  induction binds using List.reverseRecOn with
  | nil =>
    refine ⟨fun x => ⟨nofun, fun ⟨front, key, back, split, _⟩ => ?_⟩, fun _ => nofun, fun _ => rfl⟩
    exact absurd split.symm (List.append_ne_nil_of_right_ne_nil front (List.cons_ne_nil _ back))
  | append_singleton binds e ih =>
    rw [AnswersLast, bindAll_concat, get?_bind]
    by_cases meet : KeysMeet e.1 k
    · rw [if_pos (normalKey_eq_iff.mpr meet.symm)]
      refine ⟨fun x => ?_, nofun, fun never => absurd meet (never e (by simp))⟩
      rw [LastBound.concat_iff, Option.some.injEq]
      exact ⟨fun same => .inl ⟨meet, same⟩, fun last => last.elim And.right fun h => absurd meet h.1⟩
    · rw [if_neg fun same => meet (normalKey_eq_iff.mp same).symm]
      refine ⟨fun x => ?_, ?_⟩
      · rw [ih.1 x, LastBound.concat_iff]
        exact ⟨fun last => .inr ⟨meet, last⟩, fun last => last.elim (fun h => absurd h.1 meet) And.right⟩
      · rw [ih.2, List.forall_mem_append, List.forall_mem_singleton]
        exact ⟨fun none => ⟨none, meet⟩, And.left⟩

theorem answersLast_keysMatch_iff (binds : List (String × Button)) (k : String) :
    AnswersLast KeysMatch binds k ↔ ∀ x, LastBound KeysMeet binds k x → LastBound KeysMatch binds k x := by
  obtain ⟨answers, silent⟩ := answersLast_keysMeet binds k
  constructor
  · exact fun matched x last => (matched.1 x).mp ((answers x).mpr last)
  · intro agree
    refine ⟨fun x => ⟨fun answer => agree x ((answers x).mp answer), fun last => ?_⟩, ?_⟩
    · obtain ⟨e, member, related⟩ := LastBound.exists_iff.mp ⟨x, last⟩
      obtain ⟨y, meets⟩ := (LastBound.exists_iff (R := KeysMeet)).mpr ⟨e, member, .inl related⟩
      rw [last.unique (agree y meets)]
      exact (answers y).mpr meets
    · rw [silent]
      refine ⟨fun none e member related => none e member (.inl related), fun none e member meets => ?_⟩
      obtain ⟨x, last⟩ := LastBound.exists_iff.mpr ⟨e, member, meets⟩
      obtain ⟨f, bound, related⟩ := LastBound.exists_iff.mp ⟨x, agree x last⟩
      exact none f bound related

/-- **The last binding of a key that meets it answers a key.** That is the last one of a key that matches it
exactly if both are to the same button, as they are where no key that is bound makes up the dotted pair with
the key that is asked for. A key of more than one character meets itself alone, unless it is one of the pair. -/
theorem answersLast_meet (binds : List (String × Button)) (k : String) :
    AnswersLast KeysMeet binds k ∧
      (AnswersLast KeysMatch binds k ↔ ∀ x, LastBound KeysMeet binds k x → LastBound KeysMatch binds k x) ∧
      ((∀ e ∈ binds, ¬ DottedPair e.1 k) → AnswersLast KeysMatch binds k) ∧
      (1 < k.length → k ≠ dottedSmall → ∀ l, KeysMeet l k ↔ l = k) := by
  refine ⟨answersLast_keysMeet binds k, answersLast_keysMatch_iff binds k, fun undotted => ?_,
    fun long other l => keysMeet_iff_of_long long other⟩
  refine (answersLast_keysMatch_iff binds k).mpr fun x last => last.congr fun e member => ?_
  exact ⟨fun meet => meet.resolve_right (undotted e member), .inl⟩

/-- The sign of the kelvin has the lower case of the letter k. -/
theorem answersLast_meet_kelvin :
    (empty.bindAll [("ArrowUp", .up), ("K", .b), ("k", .a)]).get? "\u212a" = some .a ∧
      AnswersLast KeysMatch [("K", .b), ("ArrowUp", .up)] "ArrowUp" ∧ ¬ KeysMeet "arrowup" "ArrowUp" := by
  obtain ⟨answers, -⟩ := answersLast_meet [("ArrowUp", .up), ("K", .b), ("k", .a)] "\u212a"
  obtain ⟨-, -, matched, alone⟩ := answersLast_meet [("K", .b), ("ArrowUp", .up)] "ArrowUp"
  refine ⟨(answers.1 .a).mpr ⟨[("ArrowUp", .up), ("K", .b)], "k", [], rfl, .inl (.inr ?_), nofun⟩,
    matched (by decide), ?_⟩
  · exact ⟨'k', '\u212a', rfl, rfl, rfl⟩
  · rw [alone (by decide) (by decide)]
    decide

/-- The lower case of the capital I with a dot is bound, and answers the capital, which it does not match. -/
theorem not_answersLast_match : ¬ ∀ binds k, AnswersLast KeysMatch binds k := by
  intro answers
  have unmatched : ¬ KeysMatch dottedSmall dottedCapital := by
    rintro (same | ⟨c, -, same, -⟩)
    · exact dottedSmall_long 'İ' same
    · exact dottedSmall_long c same
  have unbound := (answers [(dottedSmall, .a)] dottedCapital).2.mpr (by simpa using unmatched)
  have bound : (empty.bindAll [(dottedSmall, .a)]).get? dottedCapital = some .a := by decide
  cases bound.symm.trans unbound

end KeyMap

end EmulatorHost
