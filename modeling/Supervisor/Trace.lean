/-
The trace of trap events.

The trace keeps the newest 128 events.  It takes events only while it is enabled, and notes the
time of each if it has a clock.
-/
import Supervisor.Ring
import Supervisor.Text

namespace Supervisor

inductive EventKind where
  | trapEnter
  | trapExit
  | handlerAdded
  | handlerRemoved
  | contextCleanup
  | errorRaised
  | panicLatched
  | custom
  /-- A kind that has no name of its own, by its number. -/
  | unlisted (number : Int)
deriving Repr, DecidableEq, Inhabited

namespace EventKind

/-- Every kind that has a name, in the order in which they are listed. -/
def all : List EventKind :=
  [trapEnter, trapExit, handlerAdded, handlerRemoved, contextCleanup, errorRaised, panicLatched,
    custom]

/-- The number of a kind: its place in that order, if it has one. -/
def number : EventKind → Int
  | unlisted n => n
  | k => k.ctorIdx

/-- The kind with a number. -/
def ofNumber (n : Int) : EventKind :=
  if n < 0 then unlisted n else all[n.toNat]?.getD (unlisted n)

/-- The name of a kind, filled up to seven characters. -/
def name : EventKind → String
  | trapEnter => "ENTER  "
  | trapExit => "EXIT   "
  | handlerAdded => "REG    "
  | handlerRemoved => "UNREG  "
  | contextCleanup => "CLEANUP"
  | errorRaised => "ERROR  "
  | panicLatched => "PANIC  "
  | custom => "CUSTOM "
  | unlisted _ => "UNKNOWN"

end EventKind

/-- An event of the trace. -/
structure TraceEvent where
  timestamp : UInt64
  kind : EventKind
  name : Text
  value : UInt64
deriving Repr, DecidableEq

/-- The number of events that the trace holds. -/
def traceCapacity : Nat := 128

structure Trace where
  enabled : Bool := false
  /-- Whether events are timed. -/
  clocked : Bool := false
  events : Ring TraceEvent traceCapacity := {}
deriving Repr, DecidableEq, Inhabited

namespace Trace

def clear (t : Trace) : Trace := { t with events := {} }

/-- Starts over, with or without a clock. -/
def start (t : Trace) (clocked : Bool) : Trace := { t with clocked, events := {} }

/-- Takes an event at a time; the time is noted only if there is a clock. -/
def record (t : Trace) (now : UInt64) (kind : EventKind) (name : Text) (value : UInt64) : Trace :=
  if t.enabled then
    { t with events := t.events.push ⟨if t.clocked then now else 0, kind, name, value⟩ }
  else t

@[simp] theorem record_of_disabled {t : Trace} (h : t.enabled = false) (now : UInt64)
    (kind : EventKind) (name : Text) (value : UInt64) : t.record now kind name value = t := by
  simp [record, h]

end Trace

end Supervisor
