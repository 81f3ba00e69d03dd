import EmulatorHost.Json.Value
import Mathlib.Data.List.Basic
import Mathlib.Data.List.DropRight

/-!
# Written values inside an object

A value is read up to where it ends, and what follows it in an object does not matter to it.

* `Json.Extends`: a reader goes on in the same way where a delimiter follows; **`Json.extends_number`**,
  **`Json.extends_float`**.
* `Json.null?_float`, `Json.choice_writeText`: numbers and names in the readers of configurations.
* `Json.members`: the members of an object with their commas; `Json.intercalate_eq_members`.
-/

namespace EmulatorHost.Json

variable {α β : Type} {r : JsonReader α} {s : List Char}

/-! ## What follows a value -/

/-- The characters that may follow a value inside an enclosure. -/
def IsDelimiter (c : Char) : Prop := c = ',' ∨ c = ']' ∨ c = '}'

/-- What the reader reads of the text it also reads where a delimiter follows the text. -/
def Extends (r : JsonReader α) (s : List Char) : Prop :=
  ∀ a t, r.run s = .ok (a, t) →
    ∀ c rest, IsDelimiter c → r.run (s ++ c :: rest) = .ok (a, t ++ c :: rest)

theorem run_bind_eq_ok_iff {f : α → JsonReader β} {p : β × List Char} :
    (r >>= f).run s = .ok p ↔ ∃ a t, r.run s = .ok (a, t) ∧ (f a).run t = .ok p := by
  rw [StateT.run_bind]
  cases r.run s with
  | error e => simp [bind, Except.bind]
  | ok q => simp [bind, Except.bind, Prod.ext_iff, and_assoc]

theorem not_run_throw (e : JsonError) (p : α × List Char) : (throw e : JsonReader α).run s ≠ .ok p := by
  rintro ⟨⟩

namespace Extends

theorem pure (a : α) : Extends (pure a : JsonReader α) s := by
  rintro b t ⟨⟩ c rest -
  rfl

theorem throw (e : JsonError) : Extends (throw e : JsonReader α) s := by
  rintro a t ⟨⟩

theorem lift (x : Except JsonError α) : Extends (liftM x : JsonReader α) s := by
  cases x with
  | error e => exact throw e
  | ok a => exact pure a

theorem bind {f : α → JsonReader β} (first : Extends r s)
    (next : ∀ a t, r.run s = .ok (a, t) → Extends (f a) t) : Extends (r >>= f) s := by
  intro b u read c rest delimiter
  obtain ⟨a, t, fst, snd⟩ := run_bind_eq_ok_iff.mp read
  exact run_bind_eq_ok_iff.mpr ⟨a, _, first a t fst c rest delimiter, next a t fst b u snd c rest delimiter⟩

theorem ite {p : Prop} [Decidable p] {q : JsonReader α} (yes : p → Extends r s) (no : ¬ p → Extends q s) :
    Extends (if p then r else q) s := by
  split_ifs with h
  · exact yes h
  · exact no h

theorem advance_cons (d : Char) : Extends advance (d :: s) := by
  rintro a t ⟨⟩ c rest -
  rfl

theorem head_bind (d : Char) {f : Option Char → JsonReader α} (next : Extends (f (some d)) (d :: s)) :
    Extends (head >>= f) (d :: s) := next

theorem head_cases {f : Option Char → JsonReader α} (dry : ∀ p, (f none).run [] ≠ .ok p)
    (next : ∀ d t, Extends (f (some d)) (d :: t)) (s : List Char) : Extends (head >>= f) s := by
  cases s with
  | nil => exact fun a t read => absurd read (dry (a, t))
  | cons d s => exact .head_bind d (next d s)

theorem head_bind_ite {q : JsonReader α} (here : Option Char → Bool) (other : here none = false)
    (delimiters : ∀ c, IsDelimiter c → here (some c) = false) (yes : ∀ t, Extends r t) (no : Extends q s) :
    Extends (do if here (← head) then advance; r else q) s := by
  cases s with
  | cons d s => exact .head_bind d (.ite (fun _ => (Extends.advance_cons d).bind fun _ t _ => yes t) fun _ => no)
  | nil =>
    have at_end (s : List Char) (absent : here s.head? = false) :
        (do if here (← head) then advance; r else q : JsonReader α).run s = q.run s := by
      change (if here s.head? then _ else q : JsonReader α).run s = _
      rw [absent, if_neg Bool.false_ne_true]
    intro a t read c rest delimiter
    rw [at_end [] other] at read
    rw [List.nil_append, at_end (c :: rest) (delimiters c delimiter)]
    exact no a t read c rest delimiter

end Extends

theorem extends_digits (s : List Char) : Extends digits s := by
  rintro a t ⟨⟩ c rest delimiter
  have other : ¬ c.isDigit = true := by
    rcases delimiter with rfl | rfl | rfl <;> decide
  change Except.ok ((s ++ c :: rest).takeWhile Char.isDigit, (s ++ c :: rest).dropWhile Char.isDigit) =
    Except.ok (s.takeWhile Char.isDigit, s.dropWhile Char.isDigit ++ c :: rest)
  rw [List.takeWhile_append, List.dropWhile_append, List.takeWhile_cons_of_neg other,
    List.dropWhile_cons_of_neg other, List.append_nil]
  congr 2
  · split_ifs with whole
    · exact (List.IsPrefix.eq_of_length (List.takeWhile_prefix _) whole).symm
    · rfl
  · split_ifs with whole
    · rw [List.isEmpty_iff.mp whole, List.nil_append]
    · rfl

theorem extends_exponentPart (negative : Bool) (significand : Nat) (exponent : Int) (s : List Char) :
    Extends (exponentPart negative significand exponent) s := by
  refine .head_cases (not_run_throw (s := []) _) (fun d s => .head_bind d (.ite
    (fun _ => (Extends.advance_cons d).bind fun _ t _ => ?_) fun _ => ?_)) s
  all_goals
    exact .head_cases (not_run_throw (s := []) _) (fun d t => .ite
      (fun _ => (extends_digits _).bind fun ds u _ => .ite (fun _ => .lift _) fun _ =>
        .ite (fun _ => .pure _) fun _ => .throw _)
      fun _ => .throw _) _

theorem Extends.atExponent_bind {q : JsonReader α} (yes : ∀ t, Extends r t) (no : Extends q s) :
    Extends (do if ← atExponent then advance; r else q) s := by
  refine Extends.head_bind_ite (fun c => c == some 'e' || c == some 'E') rfl ?_ yes no
  rintro c (rfl | rfl | rfl) <;> rfl

theorem extends_fractionPart (negative : Bool) (significand : Nat) (exponent : Int) (s : List Char) :
    Extends (fractionPart negative significand exponent) s := by
  unfold fractionPart
  refine (extends_digits s).bind fun ds t _ => .ite (fun _ => ?_) fun _ => ?_
  · cases t with
    | nil => rintro a u ⟨⟩
    | cons d t => exact .head_bind d fun a u => by rintro ⟨⟩
  · exact .atExponent_bind (extends_exponentPart _ _ _) (.lift _)

theorem extends_number (negative : Bool) (s : List Char) : Extends (number negative) s := by
  have after (significand : Nat) (left t : List Char) : Extends (do
      if (← head) == some '.' then
        advance
        return .floating (← fractionPart negative significand left.length)
      else if ← atExponent then
        advance
        return .floating (← exponentPart negative significand left.length)
      else if !left.isEmpty then return .floating (← assemble negative significand left.length)
      else if !negative then return .whole significand
      else if significand = 0 || UInt64.size / 2 < significand then
        return .floating (-JsonNumber.ofSignificand significand)
      else return .whole (-(significand : Int)) : JsonReader JsonNumber) t := by
    refine .head_bind_ite (fun c => c == some '.') rfl ?_
      (fun u => (extends_fractionPart _ _ _ u).bind fun _ _ _ => .pure _) ?_
    · rintro c (rfl | rfl | rfl) <;> rfl
    · refine .atExponent_bind (fun u => (extends_exponentPart _ _ _ u).bind fun _ _ _ => .pure _) ?_
      exact .ite (fun _ => (Extends.lift _).bind fun _ _ _ => .pure _) fun _ =>
        .ite (fun _ => .pure _) fun _ => .ite (fun _ => .pure _) fun _ => .pure _
  refine .head_cases (not_run_throw (s := []) _) (fun d s => .ite (fun _ => ?_) fun _ => ?_) s
  · rintro a t ⟨⟩
  · refine (extends_digits _).bind fun ds t _ => .ite (fun _ => ?_) fun _ => ?_
    · rintro a u ⟨⟩
    · obtain ⟨significand, left⟩ := absorb 0 ds
      exact after significand left t

/-! ## Readers that only fail -/

/-- The reader reads nothing. -/
def Fails (r : JsonReader α) : Prop := ∀ s p, r.run s ≠ .ok p

namespace Fails

theorem throw (e : JsonError) : Fails (throw e : JsonReader α) := by
  rintro s p ⟨⟩

theorem bind {f : α → JsonReader β} (next : ∀ a, Fails (f a)) : Fails (r >>= f) := by
  intro s p read
  obtain ⟨a, t, -, read⟩ := run_bind_eq_ok_iff.mp read
  exact next a t p read

end Fails

theorem fails_wrongType (expected : String) : Fails (wrongType expected : JsonReader α) := by
  refine .bind fun c => ?_
  split
  case h_6 | h_7 => exact .throw _
  case h_8 =>
    split_ifs
    · exact .bind fun _ => .throw _
    · exact .throw _
  all_goals exact .bind fun _ => .bind fun _ => .throw _

/-! ## Numbers -/

theorem peek_run (s : List Char) : peek.run s = .ok ((s.dropWhile isBlank).head?, s.dropWhile isBlank) := rfl

theorem peekValue_run_eq_ok_iff {c : Char} {t : List Char} :
    peekValue.run s = .ok (c, t) ↔ s.dropWhile isBlank = t ∧ ∃ u, t = c :: u := by
  unfold peekValue
  rw [StateT.run_bind, peek_run, ok_bind]
  dsimp only
  cases s.dropWhile isBlank with
  | nil =>
    refine iff_of_false ?_ ?_
    · rintro ⟨⟩
    · rintro ⟨rfl, u, ⟨⟩⟩
  | cons d u =>
    constructor
    · rintro ⟨⟩
      exact ⟨rfl, u, rfl⟩
    · rintro ⟨rfl, v, ⟨⟩⟩
      rfl

theorem extends_peekValue (s : List Char) : Extends peekValue s := by
  intro c t read d rest delimiter
  obtain ⟨here, u, rfl⟩ := peekValue_run_eq_ok_iff.mp read
  refine peekValue_run_eq_ok_iff.mpr ⟨?_, u ++ d :: rest, rfl⟩
  rw [List.dropWhile_append, here]
  rfl

theorem extends_float (s : List Char) : Extends float s := by
  refine (extends_peekValue s).bind fun c t here => .ite (fun _ => ?_) fun _ => .ite (fun _ => ?_) fun _ => ?_
  · obtain ⟨-, u, rfl⟩ := peekValue_run_eq_ok_iff.mp here
    exact (Extends.advance_cons c).bind fun _ u _ => (extends_number true u).bind fun _ _ _ => .pure _
  · exact (extends_number false t).bind fun _ _ _ => .pure _
  · intro a u read
    exact absurd read (fails_wrongType "f64" t _)

theorem null?_float {x : Float} {t : List Char} (read : float.run s = .ok (x, t)) :
    (null? float).run s = .ok (some x, t) := by
  have again : float.run (s.dropWhile isBlank) = float.run s := by
    unfold float peekValue
    simp only [StateT.run_bind, peek_run, List.dropWhile_idempotent]
  have other : ((s.dropWhile isBlank).head? == some 'n') = false := by
    refine beq_eq_false_iff_ne.mpr fun null => ?_
    obtain ⟨c, u, here, read⟩ := run_bind_eq_ok_iff.mp read
    obtain ⟨rfl, v, first⟩ := peekValue_run_eq_ok_iff.mp here
    rw [first] at null
    cases null
    exact fails_wrongType "f64" _ _ read
  unfold null?
  rw [StateT.run_bind, peek_run, ok_bind]
  dsimp only
  rw [other, if_neg Bool.false_ne_true, StateT.run_bind, again, read]
  rfl

/-! ## Names -/

theorem writeText_eq (w : String) : writeText w.toList = '"' :: (writeText w.toList).tail := rfl

/-- **A written name is read as what it stands for.** -/
theorem choice_writeText {choices : List (String × α)} {w : String} {a : α} (known : choices.lookup w = some a)
    (rest : List Char) : (choice choices).run (writeText w.toList ++ rest) = .ok (a, rest) := by
  have start (s : List Char) : (choice choices).run ('"' :: s) = (text >>= choose choices).run s := rfl
  rw [writeText_eq, List.cons_append, start, StateT.run_bind, text_writeText, ok_bind]
  simp only [choose, known]
  rfl

/-! ## Members of an object -/

/-- What stands before a member of an object. -/
def separator (first : Bool) : List Char := if first then [] else [',']

/-- **A written key is read** where an object goes on. -/
theorem key_run (first : Bool) (key : String) (rest : List Char) (f : String → JsonReader α) (q : JsonReader α) :
    (do if ← nextKey first then advance; f (← text) else q).run
        (separator first ++ (writeText key.toList ++ rest)) =
      (f key).run rest := by
  have goes (s : List Char) : (nextKey first).run (separator first ++ '"' :: s) = .ok (true, '"' :: s) := by
    cases first <;> rfl
  have past (c : Char) (s : List Char) : advance.run (c :: s) = .ok ((), s) := rfl
  rw [writeText_eq, List.cons_append, StateT.run_bind, goes, ok_bind, if_pos rfl, StateT.run_bind, past, ok_bind,
    StateT.run_bind, text_writeText, ok_bind]

theorem nextKey_run_close (first : Bool) (s : List Char) :
    (nextKey first).run ('}' :: s) = .ok (false, '}' :: s) := by
  cases first <;> rfl

theorem colon_run (s : List Char) : colon.run (':' :: s) = .ok ((), s) := rfl

/-- The members of an object, with a comma before each of them that is not the first. -/
def members (first : Bool) : List (List Char) → List Char
  | [] => []
  | m :: ms => separator first ++ m ++ members false ms

theorem intercalate_eq_members (ms : List (List Char)) : [','].intercalate ms = members true ms := by
  cases ms with
  | nil => rfl
  | cons m ms =>
    induction ms generalizing m with
    | nil => simp [members, separator]
    | cons n ms ih =>
      rw [List.intercalate_cons_cons, ih n]
      simp [members, separator]

theorem members_append_close (ms : List (List Char)) (rest : List Char) :
    ∃ c t, IsDelimiter c ∧ members false ms ++ '}' :: rest = c :: t := by
  cases ms with
  | nil => exact ⟨'}', rest, .inr (.inr rfl), rfl⟩
  | cons m ms => exact ⟨',', _, .inl rfl, rfl⟩

theorem length_le_members (first : Bool) (ms : List (List Char)) (h : ∀ m ∈ ms, m ≠ []) :
    ms.length ≤ (members first ms).length := by
  induction ms generalizing first with
  | nil => simp
  | cons m ms ih =>
    have := ih false fun n member => h n (List.mem_cons_of_mem _ member)
    have := List.length_pos_iff.mpr (h m List.mem_cons_self)
    simp only [members, List.length_append, List.length_cons]
    omega

end EmulatorHost.Json
