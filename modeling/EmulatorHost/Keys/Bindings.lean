import EmulatorHost.Controller.Button

/-!
# Configured key bindings

* `Bindings`: buttons by key, each key once, in the order of the keys' characters.
* `Bindings.insert` replaces the button of a key that is there.
* `Bindings.standard`: the keys used where a configuration names none.
-/

namespace EmulatorHost

/-- Buttons by key, in the order of the keys. -/
@[ext] structure Bindings where
  entries : List (String × Button)
  sorted : entries.Pairwise fun x y => x.1 < y.1
  deriving DecidableEq

namespace Bindings

/-- No key is bound. -/
def empty : Bindings := ⟨[], .nil⟩

instance : Inhabited Bindings := ⟨empty⟩

/-- Puts a key in its place among sorted entries. -/
def insertEntry (key : String) (x : Button) : List (String × Button) → List (String × Button)
  | [] => [(key, x)]
  | (k, y) :: rest =>
    if key < k then (key, x) :: (k, y) :: rest
    else if k < key then (k, y) :: insertEntry key x rest
    else (key, x) :: rest

theorem mem_insertEntry {key : String} {x : Button} {es : List (String × Button)}
    {e : String × Button} (h : e ∈ insertEntry key x es) : e = (key, x) ∨ e ∈ es := by
  induction es with
  | nil => simpa [insertEntry] using h
  | cons f rest ih =>
    obtain ⟨k, y⟩ := f
    rw [insertEntry] at h
    split at h
    · simpa using h
    · split at h
      · rcases List.mem_cons.1 h with rfl | h
        · exact .inr List.mem_cons_self
        · exact (ih h).imp_right (List.mem_cons_of_mem _)
      · rcases List.mem_cons.1 h with rfl | h
        · exact .inl rfl
        · exact .inr (List.mem_cons_of_mem _ h)

theorem eq_of_not_lt {a b : String} (h : ¬a < b) (h' : ¬b < a) : a = b :=
  String.le_antisymm (String.not_lt.1 h') (String.not_lt.1 h)

theorem sorted_insertEntry (key : String) (x : Button) {es : List (String × Button)}
    (h : es.Pairwise fun x y => x.1 < y.1) : (insertEntry key x es).Pairwise fun x y => x.1 < y.1 := by
  induction es with
  | nil => simp [insertEntry]
  | cons f rest ih =>
    obtain ⟨k, y⟩ := f
    have hk := List.pairwise_cons.1 h
    rw [insertEntry]
    split
    · next lt =>
      refine List.pairwise_cons.2 ⟨fun e he => ?_, h⟩
      rcases List.mem_cons.1 he with rfl | he
      · exact lt
      · exact String.lt_trans lt (hk.1 e he)
    · next le =>
      split
      · next lt =>
        refine List.pairwise_cons.2 ⟨fun e he => ?_, ih hk.2⟩
        rcases mem_insertEntry he with rfl | he
        · exact lt
        · exact hk.1 e he
      · next ge =>
        have e := eq_of_not_lt le ge
        exact List.pairwise_cons.2 ⟨fun f hf => e ▸ hk.1 f hf, hk.2⟩

/-- Binds a key, in place of what it was bound to. -/
def insert (b : Bindings) (key : String) (x : Button) : Bindings :=
  ⟨insertEntry key x b.entries, sorted_insertEntry key x b.sorted⟩

/-- The button of a key. -/
def get? (b : Bindings) (key : String) : Option Button := b.entries.lookup key

theorem lookup_cons_ite {α : Type} (k l : String) (y : α) (es : List (String × α)) :
    ((l, y) :: es).lookup k = if k = l then some y else es.lookup k := by
  by_cases h : k = l
  · simp [h]
  · have : (k == l) = false := beq_eq_false_iff_ne.2 h
    simp [List.lookup_cons, h, this]

/-- Bindings from keys and buttons; of several for a key the last one stays. -/
def ofList (es : List (String × Button)) : Bindings := es.foldl (fun b e => b.insert e.1 e.2) empty

/-- The letters left of the home position for directions, those right of it for buttons. -/
def standard : Bindings :=
  ofList
    [("a", .left), ("w", .up), ("s", .down), ("d", .right), ("j", .a), ("k", .b), ("u", .select),
      ("i", .start)]

end Bindings

end EmulatorHost
