/-!
# Notices for the page

* `Notices`: messages waiting for the page, at most `Notices.capacity` of them; older ones are dropped
  and counted, and a fault that repeats the one before it is only counted.
* `Notices.push`, `Notices.fault`, `Notices.take`.
* **`Notices.size_enqueue`**: the bound is kept.
-/

namespace EmulatorHost

/-- Messages waiting for the page, the oldest first. A page is taken to have fewer than `2 ^ 32` of them, so
that its counts stay below that. -/
structure Notices where
  queue : List String
  /-- Messages dropped since the page last took any. -/
  dropped : Nat
  /-- The fault that is only counted if it comes again. -/
  lastFault : Option String
  /-- How often it came again. -/
  repeats : Nat
  deriving DecidableEq, Repr

namespace Notices

/-- The most messages that wait. -/
def capacity : Nat := 64

/-- Nothing waits. -/
def empty : Notices := ⟨[], 0, none, 0⟩

instance : Inhabited Notices := ⟨empty⟩

/-- How many messages wait. -/
def size (n : Notices) : Nat := n.queue.length

/-- Adds a message, in place of the oldest if there is no room. -/
def enqueue (n : Notices) (message : String) : Notices :=
  if n.queue.length = capacity then
    { n with queue := n.queue.tail ++ [message], dropped := n.dropped + 1 }
  else { n with queue := n.queue ++ [message] }

/-- Adds how often the last fault came again, if it did. -/
def flush (n : Notices) : Notices :=
  if n.repeats = 0 then n
  else
    { n with repeats := 0 }.enqueue ("last fault repeated " ++ toString n.repeats ++ " more times")

/-- Adds a message that is no fault. -/
def push (n : Notices) (message : String) : Notices :=
  { n.flush with lastFault := none }.enqueue message

/-- Adds a fault; false if it repeats the last one and is only counted. -/
def fault (n : Notices) (message : String) : Bool × Notices :=
  if n.lastFault = some message then (false, { n with repeats := n.repeats + 1 })
  else (true, { n.flush.enqueue message with lastFault := some message })

/-- What the page takes: first how many messages were dropped, if any were. -/
def take (n : Notices) : List String × Notices :=
  let m := n.flush
  let older := if m.dropped = 0 then [] else [toString m.dropped ++ " older notifications dropped"]
  (older ++ m.queue, { m with queue := [], dropped := 0 })

/-- **No more than the capacity ever wait.** -/
theorem size_enqueue {n : Notices} (h : n.size ≤ capacity) (message : String) :
    (n.enqueue message).size ≤ capacity := by
  unfold size at h
  unfold enqueue size
  split
  · next full => simp [full, capacity]
  · next room => simp only [List.length_append, List.length_singleton]; omega

end Notices

end EmulatorHost
