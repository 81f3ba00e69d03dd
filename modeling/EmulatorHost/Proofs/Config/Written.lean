import EmulatorHost.Proofs.Config.Usable
import EmulatorHost.Proofs.Json.Written

/-!
# Written configurations

What a configuration is written as is read back as the same configuration: field by field, and key by key of
its bindings. Only the text of a number need not be read as the number, so that is asked of the numbers.

* **`Bindings.ofList_entries`**: inserted in their order, the entries give the bindings again.
* `Config.readBindings_run`: written bindings read back.
* `Config.Draft.take`: a draft with one more field of a configuration; `Config.readField_run` for one field,
  `Config.readFields_run` for several.
* **`Config.ofJson_toJson`**: a written configuration that passes reads back.
-/

namespace EmulatorHost

/-! ## Entries in their order -/

namespace Bindings

theorem insertEntry_last {key : String} (x : Button) {es : List (String × Button)}
    (last : ∀ e ∈ es, e.1 < key) : insertEntry key x es = es ++ [(key, x)] := by
  induction es with
  | nil => rfl
  | cons e es ih =>
    have less : e.1 < key := last e List.mem_cons_self
    rw [insertEntry, if_neg fun more => String.lt_irrefl _ (String.lt_trans less more), if_pos less,
      ih fun f member => last f (List.mem_cons_of_mem _ member), List.cons_append]

theorem entries_ofList {es : List (String × Button)} (sorted : es.Pairwise fun x y => x.1 < y.1) :
    (ofList es).entries = es := by
  induction es using List.reverseRecOn with
  | nil => rfl
  | append_singleton es e ih =>
    obtain ⟨front, -, last⟩ := List.pairwise_append.mp sorted
    rw [ofList, List.foldl_append]
    change insertEntry e.1 e.2 (ofList es).entries = _
    rw [ih front, insertEntry_last e.2 fun f member => last f member e (List.mem_singleton_self e)]

/-- **Inserted in their order, the entries give the bindings again.** -/
theorem ofList_entries (b : Bindings) : ofList b.entries = b := Bindings.ext (entries_ofList b.sorted)

end Bindings

namespace Config

open Json

/-! ## Bindings -/

theorem writeField_append (name : String) (value rest : List Char) :
    writeField name value ++ rest = writeText name.toList ++ (':' :: (value ++ rest)) := by
  simp [writeField]

theorem writeField_ne_nil (name : String) (value : List Char) : writeField name value ≠ [] := by
  rw [writeField, writeText_eq]
  exact List.cons_ne_nil _ _

/-- An entry of bindings, as it is written. -/
def writeEntry (e : String × Button) : List Char := writeField e.1 (writeText e.2.word.toList)

theorem readEntries_run_cons (c : Char) (fuel : List Char) (first : Bool) (b : Bindings) (e : String × Button)
    (rest : List Char) :
    (readEntries (c :: fuel) first b).run (separator first ++ writeEntry e ++ rest) =
      (readEntries fuel false (b.insert e.1 e.2)).run rest := by
  obtain ⟨key, x⟩ := e
  have known : buttonChoices.lookup x.word = some x := by cases x <;> rfl
  rw [readEntries, writeEntry, List.append_assoc, writeField_append, key_run, StateT.run_bind, colon_run, ok_bind,
    StateT.run_bind, choice_writeText known, ok_bind]

theorem readEntries_run (es : List (String × Button)) {fuel : List Char} (enough : es.length < fuel.length)
    (first : Bool) (b : Bindings) (rest : List Char) :
    (readEntries fuel first b).run (members first (es.map writeEntry) ++ '}' :: rest) =
      .ok (es.foldl (fun b e => b.insert e.1 e.2) b, rest) := by
  induction es generalizing fuel first b with
  | nil =>
    obtain ⟨c, fuel, rfl⟩ := List.exists_cons_of_length_pos enough
    rw [readEntries, List.map_nil, members, List.nil_append, StateT.run_bind, nextKey_run_close, ok_bind]
    rfl
  | cons e es ih =>
    obtain ⟨c, fuel, rfl⟩ := List.exists_cons_of_length_pos (Nat.lt_of_le_of_lt (Nat.zero_le _) enough)
    rw [List.map_cons, members, List.append_assoc, readEntries_run_cons, ih (by simpa using enough),
      List.foldl_cons]

/-- **Written bindings read back.** -/
theorem readBindings_run (b : Bindings) (rest : List Char) :
    readBindings.run (writeBindings b ++ rest) = .ok (b, rest) := by
  have start (s : List Char) : readBindings.run ('{' :: s) = (readEntries s true .empty).run s := rfl
  have written : writeBindings b = '{' :: members true (b.entries.map writeEntry) ++ ['}'] := by
    rw [← intercalate_eq_members]
    rfl
  have enough := length_le_members true (b.entries.map writeEntry)
    (List.forall_mem_map.mpr fun e _ => writeField_ne_nil _ _)
  rw [List.length_map] at enough
  rw [written, List.cons_append, List.cons_append, start, List.append_assoc, List.singleton_append,
    readEntries_run _ (by simp only [List.length_append, List.length_cons]; omega)]
  exact congrArg (fun b => Except.ok (b, rest)) b.ofList_entries

/-! ## Values -/

/-- The text of a double is read as the double. -/
def ReadsBack (x : Float) : Prop := Json.float.run (writeFloat x) = .ok (x, [])

instance (x : Float) : Decidable (ReadsBack x) := inferInstanceAs (Decidable (_ = _))

theorem ReadsBack.float_run {x : Float} (h : ReadsBack x) {c : Char} (delimiter : IsDelimiter c)
    (rest : List Char) : Json.float.run (writeFloat x ++ c :: rest) = .ok (x, c :: rest) :=
  extends_float _ x [] h c rest delimiter

theorem unit_run (u : Option StepUnit) (rest : List Char) :
    (null? (choice unitChoices)).run (writeOption (fun u => writeText u.word.toList) u ++ rest) =
      .ok (u, rest) := by
  cases u with
  | none => rfl
  | some u =>
    have known : unitChoices.lookup u.word = some u := by cases u <;> rfl
    have quote (s : List Char) : (null? (choice unitChoices)).run ('"' :: s) =
      (some <$> choice unitChoices).run ('"' :: s) := rfl
    have read := choice_writeText known rest
    rw [writeText_eq, List.cons_append] at read
    rw [writeOption, writeText_eq, List.cons_append, quote, StateT.run_map, read, map_ok]

theorem interval_run {x : Option Float} (h : ∀ y ∈ x, ReadsBack y) {c : Char} (delimiter : IsDelimiter c)
    (rest : List Char) :
    (null? float).run (writeOption writeFloat x ++ c :: rest) = .ok (x, c :: rest) := by
  cases x with
  | none => rfl
  | some y => exact null?_float ((h y rfl).float_run delimiter rest)

/-! ## Fields -/

variable {c : Config}

/-- The value of a field, as it is written. -/
def writeValue (c : Config) : Field → List Char
  | .stepUnit => writeOption (fun u => writeText u.word.toList) c.stepUnit
  | .emulation => writeOption writeFloat c.emulationMillis
  | .refresh => writeFloat c.refreshMillis
  | .delivery => writeText c.delivery.word.toList
  | .bindings => writeBindings c.bindings

/-- A field with its value, as it is written. -/
def writeMember (c : Config) (f : Field) : List Char := writeField f.name (c.writeValue f)

theorem write_eq (c : Config) : c.write = '{' :: members true (Field.all.map c.writeMember) ++ ['}'] := by
  rw [← intercalate_eq_members]
  rfl

/-- A draft with one more field of a configuration. -/
def Draft.take (c : Config) (d : Draft) : Field → Draft
  | .stepUnit => { d with stepUnit := some c.stepUnit }
  | .emulation => { d with emulation := some c.emulationMillis }
  | .refresh => { d with refresh := some c.refreshMillis }
  | .delivery => { d with delivery := some c.delivery }
  | .bindings => { d with bindings := some c.bindings }

@[simp] theorem Draft.has_take (d : Draft) (f g : Field) :
    (d.take c f).has g = (decide (g = f) || d.has g) := by
  cases f <;> cases g <;> rfl

theorem Draft.finish_take (c : Config) : (Field.all.foldl (Draft.take c) {}).finish = c := rfl

/-- **A written value reads back** as the field it is of. -/
theorem readField_run (refresh : ReadsBack c.refreshMillis)
    (emulation : ∀ millis ∈ c.emulationMillis, ReadsBack millis) (d : Draft) (f : Field) {e : Char}
    (delimiter : IsDelimiter e) (rest : List Char) :
    (readField d f).run (c.writeValue f ++ e :: rest) = .ok (d.take c f, e :: rest) := by
  cases f with
  | stepUnit =>
    rw [readField, writeValue, StateT.run_bind, unit_run]
    rfl
  | emulation =>
    rw [readField, writeValue, StateT.run_bind, interval_run emulation delimiter]
    rfl
  | refresh =>
    rw [readField, writeValue, StateT.run_bind, refresh.float_run delimiter]
    rfl
  | delivery =>
    have known : deliveryChoices.lookup c.delivery.word = some c.delivery := by cases c.delivery <;> rfl
    rw [readField, writeValue, StateT.run_bind, choice_writeText known]
    rfl
  | bindings =>
    rw [readField, writeValue, StateT.run_bind, readBindings_run]
    rfl

theorem readFields_run_cons {f : Field} {d : Draft} (new : d.has f = false) (h : Char) (fuel : List Char)
    (first : Bool) (rest : List Char) :
    (readFields (h :: fuel) first d).run (separator first ++ c.writeMember f ++ rest) =
      (readField d f >>= readFields fuel false).run (c.writeValue f ++ rest) := by
  have known : Field.ofName? f.name = some f := by cases f <;> rfl
  rw [readFields, writeMember, List.append_assoc, writeField_append, key_run]
  simp only [known, new]
  rw [if_neg Bool.false_ne_true, StateT.run_bind, colon_run, ok_bind]

/-- **Written fields read back**, if none of them has been read. -/
theorem readFields_run (refresh : ReadsBack c.refreshMillis)
    (emulation : ∀ millis ∈ c.emulationMillis, ReadsBack millis) (fs : List Field) (once : fs.Nodup)
    {fuel : List Char} (enough : fs.length < fuel.length) (first : Bool) {d : Draft}
    (new : ∀ f ∈ fs, d.has f = false) (rest : List Char) :
    (readFields fuel first d).run (members first (fs.map c.writeMember) ++ '}' :: rest) =
      .ok (fs.foldl (Draft.take c) d, rest) := by
  induction fs generalizing fuel first d with
  | nil =>
    obtain ⟨h, fuel, rfl⟩ := List.exists_cons_of_length_pos enough
    rw [readFields, List.map_nil, members, List.nil_append, StateT.run_bind, nextKey_run_close, ok_bind]
    rfl
  | cons f fs ih =>
    obtain ⟨h, fuel, rfl⟩ := List.exists_cons_of_length_pos (Nat.lt_of_le_of_lt (Nat.zero_le _) enough)
    obtain ⟨other, once⟩ := List.nodup_cons.mp once
    obtain ⟨e, s, delimiter, follows⟩ := members_append_close (fs.map c.writeMember) rest
    have read := readField_run refresh emulation d f delimiter s
    rw [← follows] at read
    rw [List.map_cons, members, List.append_assoc, readFields_run_cons (new f List.mem_cons_self),
      StateT.run_bind, read, ok_bind]
    refine ih once (by simpa using enough) false fun g member => ?_
    have different : g ≠ f := fun same => other (same ▸ member)
    simp [different, new g (List.mem_cons_of_mem _ member)]

/-- **A written configuration reads back**, whether or not it passes. -/
theorem read_write (refresh : ReadsBack c.refreshMillis)
    (emulation : ∀ millis ∈ c.emulationMillis, ReadsBack millis) : read.run c.write = .ok (c, []) := by
  have start (s : List Char) : read.run ('{' :: s) = (Draft.finish <$> readFields s true {}).run s := rfl
  have enough := length_le_members true (Field.all.map c.writeMember)
    (List.forall_mem_map.mpr fun f _ => writeField_ne_nil _ _)
  rw [List.length_map] at enough
  rw [write_eq, List.cons_append, start, StateT.run_map, readFields_run refresh emulation Field.all (by decide)
    (by simp only [List.length_append, List.length_cons]; omega) true (fun f _ => by cases f <;> rfl), map_ok,
    Draft.finish_take]

/-- **A written configuration that passes reads back**, if the text of each double in it does. -/
theorem ofJson_toJson (c : Config) (passes : c.validate = .ok ()) (refresh : ReadsBack c.refreshMillis)
    (emulation : ∀ millis ∈ c.emulationMillis, ReadsBack millis) : ofJson c.toJson = .ok c := by
  refine ofJson_ok_iff.mpr ⟨?_, passes⟩
  rw [parse, toJson, String.toList_ofList, read_write refresh emulation]
  rfl

/-- A configuration whose keys need escapes. -/
def thorny : Config where
  stepUnit := some .scanline
  emulationMillis := some 0.5
  refreshMillis := 1000 / 60
  delivery := .discrete
  bindings := .ofList [("\\", .a), ("\"", .b), ("\x00\x1f\n", .select), ("", .start), ("🎮é", .up)]

theorem ofJson_toJson_thorny : ofJson thorny.toJson = .ok thorny := by
  refine ofJson_toJson thorny (by decide +kernel) (by decide +kernel) ?_
  rintro millis ⟨⟩
  decide +kernel

end Config

end EmulatorHost
