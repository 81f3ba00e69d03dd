/-!
# Buttons of the standard controller

* `Button`: the eight buttons, in the order the console shifts them out; `Button.index`, `Button.ofIndex?`.
* `ButtonEvent`: one press or release; `ButtonEvent.code` numbers the sixteen of them.
* **`ButtonEvent.ofCode?_code`**: the numbering reads back.
-/

namespace EmulatorHost

/-- A button of the standard controller, in the order of its bit. -/
inductive Button where
  | a | b | select | start | up | down | left | right
  deriving DecidableEq, Repr, Inhabited

namespace Button

/-- All buttons, in the order of their bits. -/
def all : List Button := [a, b, select, start, up, down, left, right]

/-- The position of a button in `all`, and the number of its bit. -/
def index : Button → Nat
  | a => 0
  | b => 1
  | select => 2
  | start => 3
  | up => 4
  | down => 5
  | left => 6
  | right => 7

/-- The button with a given index, if there is one. -/
def ofIndex? (i : Nat) : Option Button := all[i]?

/-- The word for a button in configurations and logs. -/
def word : Button → String
  | a => "A"
  | b => "B"
  | select => "Select"
  | start => "Start"
  | up => "Up"
  | down => "Down"
  | left => "Left"
  | right => "Right"

/-- The button a configuration word names. -/
def ofWord? (w : String) : Option Button := all.find? fun x => x.word == w

/-- The name of a button as shown to people. -/
def label : Button → String
  | a => "A"
  | b => "B"
  | select => "Select"
  | start => "Start"
  | up => "DPAD up"
  | down => "DPAD down"
  | left => "DPAD left"
  | right => "DPAD right"

theorem index_lt (x : Button) : x.index < 8 := by cases x <;> decide

@[simp] theorem ofIndex?_index (x : Button) : ofIndex? x.index = some x := by cases x <;> rfl

theorem ofIndex?_eq_some_iff {i : Nat} {x : Button} : ofIndex? i = some x ↔ x.index = i := by
  refine ⟨fun h => ?_, fun h => h ▸ ofIndex?_index x⟩
  match i, h with
  | 0, h | 1, h | 2, h | 3, h | 4, h | 5, h | 6, h | 7, h => cases h; rfl

/-- Buttons compare by their bits. -/
def compare (x y : Button) : Ordering := Ord.compare x.index y.index

end Button

/-- Which way a button moved. -/
inductive Edge where
  | press | release
  deriving DecidableEq, Repr, Inhabited

namespace Edge

/-- The number of an edge in stored logs. -/
def index : Edge → Nat
  | press => 0
  | release => 1

/-- The edge with a given number, if there is one. -/
def ofIndex? : Nat → Option Edge
  | 0 => some press
  | 1 => some release
  | _ => none

@[simp] theorem ofIndex?_index (e : Edge) : ofIndex? e.index = some e := by cases e <;> rfl

end Edge

/-- A single press or release. -/
structure ButtonEvent where
  button : Button
  edge : Edge
  deriving DecidableEq, Repr, Inhabited

namespace ButtonEvent

/-- The press of a button. -/
def press (x : Button) : ButtonEvent := ⟨x, .press⟩

/-- The release of a button. -/
def release (x : Button) : ButtonEvent := ⟨x, .release⟩

/-- The number of an event for cores that take one update per event: presses are 0 to 7 and
releases 8 to 15, each in button order. -/
def code (e : ButtonEvent) : UInt8 :=
  match e.edge with
  | .press => UInt8.ofNat e.button.index
  | .release => UInt8.ofNat (e.button.index + 8)

/-- The event with a given number; there are sixteen. -/
def ofCode? (c : UInt8) : Option ButtonEvent :=
  if c < 8 then (Button.ofIndex? c.toNat).map press
  else if c < 16 then (Button.ofIndex? (c.toNat - 8)).map release
  else none

/-- **The numbering of events reads back.** -/
@[simp] theorem ofCode?_code (e : ButtonEvent) : ofCode? e.code = some e := by
  obtain ⟨x, d⟩ := e
  cases x <;> cases d <;> rfl

end ButtonEvent

end EmulatorHost
