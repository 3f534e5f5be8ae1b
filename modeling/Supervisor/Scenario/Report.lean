/-
Reports.

What an operation of a scenario answers, and what happened while it ran.
-/
import Supervisor.Fault.Table
import Supervisor.Hart.Platform

namespace Supervisor.Scenario

/-- What an operation answers. -/
inductive Report where
  | nothing
  | flag (b : Bool)
  | number (n : Int)
  /-- A word, shown in base sixteen. -/
  | word (w : UInt64)
  | text (t : Text)
  | frame (f : Frame)
  | task (t : Task)
  | error (e : SystemError)
  | list (items : List Report)
  | record (fields : List (String × Report))
deriving Inhabited

namespace Report

def count (n : Nat) : Report := number n

def name (s : String) : Report := text s

/-- An answer that may be missing. -/
def option {α : Type} (f : α → Report) : Option α → Report
  | none => nothing
  | some a => f a

/-- The string in a buffer. -/
def buffer (b : Buffer) : Report := option text (Buffer.content? b)

end Report

/-- What happened while an operation ran. -/
inductive Event where
  | trapHandler (description : Text) (sepc : UInt64) (level : Nat)
  | errorHandler (description : Text) (raw : UInt32)
  | command (number : Nat) (arguments : Text)
  /-- A hook was sprung. -/
  | hook (pattern : Text)
  /-- An operation of a routine ended. -/
  | done (label : String) (report : Report)
  /-- An operation of a hook stopped. -/
  | stopped (label : String) (stop : Stop)
  /-- A trap stopped with this frame. -/
  | frame (f : Frame)

/-- What one operation of a scenario did. -/
structure Answer where
  /-- How it ended. -/
  outcome : Except Stop Report
  /-- What was written to the console. -/
  output : Text
  /-- What was written to the console of the standard platform, if that is another one. -/
  standardOutput : Text
  events : List Event

end Supervisor.Scenario
