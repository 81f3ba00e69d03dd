import EmulatorHost.Controller.Button

/-!
# Input logs

* `InputEntry`: a button event and the tick it belongs to, counted from the start of the log.
* `InputLog`: entries in the order they were made; `InputLog.Ordered`: no tick goes back.
* `InputLog.push?` refuses an entry whose tick goes back; **`push?_isSome_iff`**.
* `InputLog.firstUnordered?` finds the first entry whose tick goes back.
-/

namespace EmulatorHost

/-- A button event with the tick before which it is applied. -/
structure InputEntry where
  tick : UInt64
  event : ButtonEvent
  deriving DecidableEq, Repr, Inhabited

/-- Recorded input. -/
@[ext] structure InputLog where
  entries : List InputEntry
  deriving DecidableEq, Repr, Inhabited

namespace InputLog

/-- The log without entries. -/
def empty : InputLog := ⟨[]⟩

/-- Whether a log has no entries. -/
def isEmpty (l : InputLog) : Bool := l.entries.isEmpty

/-- How many entries a log has. -/
def size (l : InputLog) : Nat := l.entries.length

/-- No tick goes back. -/
def Ordered (l : InputLog) : Prop := l.entries.Pairwise fun x y => x.tick ≤ y.tick

instance (l : InputLog) : Decidable l.Ordered := inferInstanceAs (Decidable (List.Pairwise _ _))

/-- Whether an entry at a tick may follow. -/
def accepts (l : InputLog) (tick : UInt64) : Bool :=
  match l.entries.getLast? with
  | none => true
  | some last => last.tick ≤ tick

/-- Adds an entry at the end, unless its tick goes back. -/
def push? (l : InputLog) (tick : UInt64) (event : ButtonEvent) : Option InputLog :=
  if l.accepts tick then some ⟨l.entries ++ [⟨tick, event⟩]⟩ else none

/-- The position of the first entry whose tick is below the one before it. -/
def firstUnordered? (l : InputLog) : Option Nat :=
  ((l.entries.zip l.entries.tail).findIdx? fun p => p.2.tick < p.1.tick).map (· + 1)

theorem push?_isSome_iff {l : InputLog} {tick : UInt64} {event : ButtonEvent} :
    (l.push? tick event).isSome ↔ ∀ last ∈ l.entries.getLast?, last.tick ≤ tick := by
  unfold push? accepts
  cases l.entries.getLast? <;> simp

end InputLog

end EmulatorHost
