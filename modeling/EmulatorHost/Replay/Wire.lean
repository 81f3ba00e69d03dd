import EmulatorHost.Replay.Log
import EmulatorHost.Wire.Controller

/-!
# Input logs in stored bytes

A log is stored as the number of its entries and then the entries, each its tick and its event.
Bytes left over after a log are not looked at.

* `InputLog.toBytes`, `InputLog.ofBytes`.
* `ReplayError`: the bytes do not read, or an entry's tick goes back.
-/

namespace EmulatorHost

namespace Wire

/-- An entry, stored. -/
def encodeEntry (e : InputEntry) : List UInt8 := Varint.encode e.tick.toNat ++ encodeEvent e.event

/-- Reads an entry. -/
def decodeEntry : Reader InputEntry := do
  let tick ← Varint.decode .w64
  let event ← decodeEvent
  return ⟨UInt64.ofNat tick, event⟩

/-- Reads a given number of entries. -/
def decodeEntries : Nat → Reader (List InputEntry)
  | 0 => return []
  | n + 1 => do
    let e ← decodeEntry
    let es ← decodeEntries n
    return e :: es

/-- A log, stored. -/
def encodeLog (l : InputLog) : List UInt8 := Varint.encode l.size ++ l.entries.flatMap encodeEntry

/-- Reads the entries of a log, in any order. -/
def decodeLog : Reader InputLog := do
  let n ← Varint.decode .w64
  return ⟨← decodeEntries n⟩

end Wire

/-- Why stored bytes are no log. -/
inductive ReplayError where
  | decode (cause : WireError)
  /-- The tick of the entry at this position goes back. -/
  | unordered (index : Nat)
  deriving DecidableEq, Repr

/-- The text of a log error. -/
def ReplayError.message : ReplayError → String
  | decode cause => "failed to decode input log: " ++ cause.message
  | unordered index => "input log is out of order at entry " ++ toString index

namespace InputLog

/-- A log as stored bytes. -/
def toBytes (l : InputLog) : List UInt8 := Wire.encodeLog l

/-- The log at the front of some bytes, whose ticks must not go back. -/
def ofBytes (bytes : List UInt8) : Except ReplayError InputLog :=
  match Wire.decodeLog.run bytes with
  | .error cause => .error (.decode cause)
  | .ok (l, _) =>
    match l.firstUnordered? with
    | some i => .error (.unordered i)
    | none => .ok l

end InputLog

end EmulatorHost
