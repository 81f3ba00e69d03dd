import EmulatorHost.Controller.State
import EmulatorHost.Wire.Varint

/-!
# Controller values in stored bytes

A controller byte is stored as it is. A button and an edge are stored as their numbers, an event as
its button and its edge.

* `Wire.decodeState`, `Wire.decodeButton`, `Wire.decodeEdge`, `Wire.decodeEvent`, each beside its encoder.
* **`Wire.decodeEvent_encodeEvent`**: a stored event reads back.
-/

namespace EmulatorHost.Wire

/-- A controller byte, stored. -/
def encodeState (s : ControllerState) : List UInt8 := [s.bits]

/-- Reads a controller byte. -/
def decodeState : Reader ControllerState := return ⟨← byte⟩

/-- A button, stored. -/
def encodeButton (x : Button) : List UInt8 := Varint.encode x.index

/-- Reads a button. -/
def decodeButton : Reader Button := do
  let i ← Varint.decode .w32
  match Button.ofIndex? i with
  | some x => return x
  | none => throw (.unexpectedVariant "ButtonId" 7 i)

/-- An edge, stored. -/
def encodeEdge (e : Edge) : List UInt8 := Varint.encode e.index

/-- Reads an edge. -/
def decodeEdge : Reader Edge := do
  let i ← Varint.decode .w32
  match Edge.ofIndex? i with
  | some e => return e
  | none => throw (.unexpectedVariant "Edge" 1 i)

/-- An event, stored. -/
def encodeEvent (e : ButtonEvent) : List UInt8 := encodeButton e.button ++ encodeEdge e.edge

/-- Reads an event. -/
def decodeEvent : Reader ButtonEvent := do
  let button ← decodeButton
  let edge ← decodeEdge
  return ⟨button, edge⟩

theorem decodeButton_encodeButton (x : Button) (rest : List UInt8) :
    decodeButton.run (encodeButton x ++ rest) = .ok (x, rest) := by
  have h : x.index < Varint.Width.w32.bound := Nat.lt_trans x.index_lt (by decide)
  simp [decodeButton, encodeButton, Varint.decode_encode h]

theorem decodeEdge_encodeEdge (e : Edge) (rest : List UInt8) :
    decodeEdge.run (encodeEdge e ++ rest) = .ok (e, rest) := by
  have h : e.index < Varint.Width.w32.bound := by cases e <;> decide
  simp [decodeEdge, encodeEdge, Varint.decode_encode h]

/-- **A stored event reads back, with the bytes after it.** -/
theorem decodeEvent_encodeEvent (e : ButtonEvent) (rest : List UInt8) :
    decodeEvent.run (encodeEvent e ++ rest) = .ok (e, rest) := by
  simp [decodeEvent, encodeEvent, List.append_assoc, decodeButton_encodeButton,
    decodeEdge_encodeEdge]

end EmulatorHost.Wire
