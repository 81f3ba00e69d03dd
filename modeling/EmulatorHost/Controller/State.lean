import EmulatorHost.Controller.Button

/-!
# The controller byte

* `ControllerState`: which buttons are held, one bit a button, `A` lowest.
* Set operations on it (`union`, `inter`, `xor`, `diff`, `compl`, `contains`, `intersects`).
* `ControllerState.apply`: the last event of a button wins; **`isPressed_apply`** says so for one event.
* `ControllerState.text`: eight letters, highest bit first, upper case where the bit is set.
-/

namespace EmulatorHost

/-- The buttons held on a controller, one bit each. -/
structure ControllerState where
  bits : UInt8
  deriving DecidableEq, Repr, Inhabited

namespace ControllerState

/-! ## Sets of buttons -/

/-- No button held. -/
def empty : ControllerState := ⟨0⟩

/-- Every button held. -/
def full : ControllerState := ⟨255⟩

/-- The bit of one button. -/
def mask (x : Button) : ControllerState := ⟨1 <<< UInt8.ofNat x.index⟩

/-- The buttons held in either. -/
def union (s t : ControllerState) : ControllerState := ⟨s.bits ||| t.bits⟩

/-- The buttons held in both. -/
def inter (s t : ControllerState) : ControllerState := ⟨s.bits &&& t.bits⟩

/-- The buttons held in exactly one. -/
def xor (s t : ControllerState) : ControllerState := ⟨s.bits ^^^ t.bits⟩

/-- The buttons held in the first and not in the second. -/
def diff (s t : ControllerState) : ControllerState := ⟨s.bits &&& ~~~t.bits⟩

/-- The buttons not held. -/
def compl (s : ControllerState) : ControllerState := ⟨~~~s.bits⟩

/-- All buttons of the second are held in the first. -/
def contains (s t : ControllerState) : Bool := s.bits &&& t.bits == t.bits

/-- Some button is held in both. -/
def intersects (s t : ControllerState) : Bool := s.bits &&& t.bits != 0

/-- No button is held. -/
def isEmpty (s : ControllerState) : Bool := s == empty

/-- Every button is held. -/
def isFull (s : ControllerState) : Bool := s == full

/-! ## Events -/

/-- Whether a button is held. -/
def isPressed (s : ControllerState) (x : Button) : Bool := s.bits.toBitVec.getLsbD x.index

/-- The buttons held, in the order of their bits. -/
def pressed (s : ControllerState) : List Button := Button.all.filter s.isPressed

/-- The state after an event: pressing a held button or releasing a free one changes nothing. -/
def apply (s : ControllerState) (e : ButtonEvent) : ControllerState :=
  match e.edge with
  | .press => s.union (mask e.button)
  | .release => s.diff (mask e.button)

/-- The state after several events, the first one first. -/
def applyAll (s : ControllerState) (es : List ButtonEvent) : ControllerState := es.foldl apply s

@[simp] theorem applyAll_nil (s : ControllerState) : s.applyAll [] = s := rfl

@[simp] theorem applyAll_cons (s : ControllerState) (e : ButtonEvent) (es : List ButtonEvent) :
    s.applyAll (e :: es) = (s.apply e).applyAll es := rfl

theorem applyAll_append (s : ControllerState) (es fs : List ButtonEvent) :
    s.applyAll (es ++ fs) = (s.applyAll es).applyAll fs := List.foldl_append

@[simp] theorem isPressed_empty (x : Button) : empty.isPressed x = false := by
  cases x <;> rfl

theorem isPressed_union (s t : ControllerState) (x : Button) :
    (s.union t).isPressed x = (s.isPressed x || t.isPressed x) := by
  simp [union, isPressed]

theorem isPressed_diff (s t : ControllerState) (x : Button) :
    (s.diff t).isPressed x = (s.isPressed x && !t.isPressed x) := by
  have := x.index_lt
  simp [diff, isPressed, this]

theorem isPressed_mask (x y : Button) : (mask x).isPressed y = decide (x = y) := by
  cases x <;> cases y <;> rfl

/-- **An event sets its own button and leaves the others.** -/
theorem isPressed_apply (s : ControllerState) (e : ButtonEvent) (x : Button) :
    (s.apply e).isPressed x = if e.button = x then decide (e.edge = .press) else s.isPressed x := by
  obtain ⟨y, d⟩ := e
  by_cases h : y = x <;> cases d <;> simp [apply, isPressed_union, isPressed_diff, isPressed_mask, h]

theorem ext_isPressed {s t : ControllerState} (h : ∀ x, s.isPressed x = t.isPressed x) : s = t := by
  obtain ⟨⟨v⟩⟩ := s
  obtain ⟨⟨w⟩⟩ := t
  congr 2
  refine BitVec.eq_of_getLsbD_eq fun i hi => ?_
  obtain ⟨x, hx⟩ : ∃ x : Button, x.index = i := by
    match i, hi with
    | 0, _ => exact ⟨.a, rfl⟩
    | 1, _ => exact ⟨.b, rfl⟩
    | 2, _ => exact ⟨.select, rfl⟩
    | 3, _ => exact ⟨.start, rfl⟩
    | 4, _ => exact ⟨.up, rfl⟩
    | 5, _ => exact ⟨.down, rfl⟩
    | 6, _ => exact ⟨.left, rfl⟩
    | 7, _ => exact ⟨.right, rfl⟩
  exact hx ▸ h x

/-! ## Text -/

/-- The letters of the bits, highest bit first. -/
def letters : List (Char × Char) :=
  [('r', 'R'), ('l', 'L'), ('d', 'D'), ('u', 'U'), ('t', 'T'), ('s', 'S'), ('b', 'B'), ('a', 'A')]

/-- The state as eight letters, highest bit first, in upper case where the bit is set. -/
def text (s : ControllerState) : String :=
  let word := List.zipWith (fun x (l : Char × Char) => if s.isPressed x then l.2 else l.1)
    Button.all.reverse letters
  "ControllerState(" ++ String.ofList word ++ ")"

/-- The name of a button's bit in listings of flags. -/
def flagName (x : Button) : String := x.word.toUpper

/-- The names of the bits set, lowest first. -/
def flagNames (s : ControllerState) : List String := s.pressed.map flagName

end ControllerState

end EmulatorHost
