import EmulatorHost.Keys.Bindings
import EmulatorHost.Text.LowerCase

/-!
# From keys to buttons

Keys are named as the host reports them. A key of one character is matched without regard to case,
a longer name only by itself.

* `normalKey`: the form under which a key is kept.
* `KeyMap`: `bind`, `get?`, `translate`, `KeyMap.ofBindings`.
* **`KeyMap.get?_bind`**: the last binding of a key in its normal form counts.
-/

namespace EmulatorHost

/-- The form under which a key is kept: a single character in lower case, a longer name as it is. -/
def normalKey (key : String) : String :=
  match key.toList with
  | [c] => String.ofList (lowerCase c)
  | _ => key

/-- Which button each key stands for. -/
structure KeyMap where
  bound : List (String × Button)
  deriving DecidableEq

namespace KeyMap

/-- No key is bound. -/
def empty : KeyMap := ⟨[]⟩

instance : Inhabited KeyMap := ⟨empty⟩

/-- Binds a key, in place of what it was bound to. -/
def bind (m : KeyMap) (key : String) (x : Button) : KeyMap :=
  ⟨(normalKey key, x) :: m.bound.filter fun e => e.1 != normalKey key⟩

/-- The button of a key. -/
def get? (m : KeyMap) (key : String) : Option Button := m.bound.lookup (normalKey key)

/-- The button event of a key that moved; keys without a button make none. -/
def translate (m : KeyMap) (key : String) (edge : Edge) : Option ButtonEvent :=
  (m.get? key).map fun x => ⟨x, edge⟩

/-- Binds configured keys, in their order. -/
def ofBindings (b : Bindings) : KeyMap := b.entries.foldl (fun m e => m.bind e.1 e.2) empty

/-- The key map used where a configuration names none. -/
def standard : KeyMap := ofBindings .standard

theorem lookup_filter_ne {k n : String} (h : k ≠ n) (es : List (String × Button)) :
    (es.filter fun e => e.1 != n).lookup k = es.lookup k := by
  induction es with
  | nil => rfl
  | cons e rest ih =>
    obtain ⟨l, y⟩ := e
    by_cases hl : l = n
    · simp [hl, ih, Bindings.lookup_cons_ite, h]
    · simp [hl, ih, Bindings.lookup_cons_ite]

/-- **The last binding of a key counts, whatever its case if it is one character.** -/
theorem get?_bind (m : KeyMap) (key k : String) (x : Button) :
    (m.bind key x).get? k = if normalKey k = normalKey key then some x else m.get? k := by
  unfold bind get?
  rw [Bindings.lookup_cons_ite]
  by_cases h : normalKey k = normalKey key
  · simp [h]
  · simp [h, lookup_filter_ne h]

end KeyMap

end EmulatorHost
