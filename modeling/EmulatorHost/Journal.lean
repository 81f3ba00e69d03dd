/-!
# The journal

* `Level`, `JournalLine`: a message of the host about what it does, and how much it matters.
* `Journal`: the messages so far, the oldest first.
-/

namespace EmulatorHost

/-- How much a message matters. -/
inductive Level where
  | debug | info | warn | error
  deriving DecidableEq, Repr

/-- The word for a level. -/
def Level.word : Level → String
  | debug => "DEBUG"
  | info => "INFO"
  | warn => "WARN"
  | error => "ERROR"

/-- A message of the host about what it does. -/
structure JournalLine where
  level : Level
  message : String
  deriving DecidableEq, Repr

/-- A message with its level in front. -/
def JournalLine.text (l : JournalLine) : String := l.level.word ++ " " ++ l.message

/-- The messages so far, the oldest first. -/
abbrev Journal := Array JournalLine

end EmulatorHost
