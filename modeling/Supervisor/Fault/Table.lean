/-
The table of error handlers.

Error handlers stand in one table of sixteen slots, in ascending order of priority and, among
equals, in the order in which they came.  An entry may ask for errors of one source or of one
level only.  The table also holds the log of errors and the panic latch, which a fatal error sets.

* `ErrorTable.add`, `ErrorTable.remove` — changes to the entries;
* `ErrorTable.matching` — the entries that an error is offered to;
* `ErrorOutcome.combine` — the outcome so far, after one more handler;
* `ErrorLog.push`, `ErrorLog.get?` — the newest 32 errors, counted from the oldest of them.
-/
import Supervisor.Fault.Error
import Supervisor.Slots
import Supervisor.Spinlock

namespace Supervisor

/-- The error handlers that the machine brings, and those of its clients, by number. -/
inductive ErrorHandler where
  | memory
  | interrupt
  | process
  | syscall
  /-- Prints the state of the system and leaves the error alone. -/
  | fatalDiagnostics
  | client (number : Nat)
deriving Repr, DecidableEq

/-- A request to register an error handler; it may lack the handler or its description. -/
structure ErrorProposal where
  handler : Option ErrorHandler
  description : Option Text
  priority : UInt8 := defaultPriority
  source : Option Source := none
  level : Option Level := none
deriving Repr, DecidableEq

structure ErrorEntry where
  handler : ErrorHandler
  description : Text
  priority : UInt8
  source : Option Source
  level : Option Level
deriving Repr, DecidableEq

instance : Tabled ErrorProposal where
  vacant := { handler := none, description := some [] }
  complete p := p.handler.isSome && p.description.isSome
  description := ErrorProposal.description
  priority := ErrorProposal.priority
  isSome_description h := (Bool.and_eq_true_iff.1 h).2

/-- The entry that a request asks for, if it lacks nothing. -/
def ErrorProposal.toEntry (p : ErrorProposal) : Option ErrorEntry :=
  match p.handler, p.description with
  | some handler, some description => some ⟨handler, description, p.priority, p.source, p.level⟩
  | _, _ => none

/-- Whether an entry asks for an error. -/
def ErrorEntry.matchesError (entry : ErrorEntry) (e : SystemError) : Bool :=
  entry.source.all (· == e.source) && entry.level.all (· == e.level)

/-- The outcome so far after one more handler: a claimed error is handled, help is never
forgotten, and to ignore an error counts only while nothing else has happened. -/
def ErrorOutcome.combine : (before next : ErrorOutcome) → ErrorOutcome
  | _, .handled => .handled
  | _, .partially => .partially
  | .unhandled, .ignored => .ignored
  | before, _ => before

/-- Whether an outcome means that somebody took care of the error. -/
def ErrorOutcome.helped : ErrorOutcome → Bool
  | .handled | .partially => true
  | .unhandled | .ignored => false

/-- The number of error handlers that there is room for. -/
def errorCapacity : Nat := 16

/-- The number of errors that the log holds. -/
def logCapacity : Nat := 32

/-- An error in the log. -/
structure LogRecord where
  error : SystemError
  /-- Whether somebody took care of it. -/
  handled : Bool
  outcome : ErrorOutcome
deriving Repr, DecidableEq

/-- The newest errors.  The log turns a mark over its slots and counts its records besides. -/
structure ErrorLog where
  slots : Vector (Option LogRecord) logCapacity := Vector.replicate logCapacity none
  /-- The slot of the next record. -/
  next : Nat := 0
  /-- How many records there have been since the log was empty. -/
  written : Nat := 0
deriving Repr, DecidableEq, Inhabited

namespace ErrorLog

/-- Adds a record, in the place of the oldest one if the log is full. -/
def push (l : ErrorLog) (r : LogRecord) : ErrorLog where
  slots := l.slots.setIfInBounds l.next (some r)
  next := (l.next + 1) % logCapacity
  written := l.written + 1

/-- The number of records in the log. -/
def size (l : ErrorLog) : Nat := if l.written < logCapacity then l.written else logCapacity

/-- The slot of the oldest record: the first one until the log is full, then the next to go. -/
def oldest (l : ErrorLog) : Nat := if l.size < logCapacity then 0 else l.next

/-- The record at a place counted from the oldest. -/
def get? (l : ErrorLog) (i : Nat) : Option LogRecord :=
  if i < l.size then (l.slots[(l.oldest + i) % logCapacity]?).join else none

@[simp] theorem written_push (l : ErrorLog) (r : LogRecord) :
    (l.push r).written = l.written + 1 := rfl

end ErrorLog

/-- The error handlers with their log. -/
structure ErrorTable where
  /-- Whether the table knows the platform. -/
  attached : Bool := false
  /-- Whether errors are traced. -/
  traced : Bool := false
  lock : Spinlock := {}
  slots : SlotTable ErrorProposal errorCapacity := SlotTable.empty
  log : ErrorLog := {}
  /-- Set by a fatal error until an operator clears it. -/
  panicMode : Bool := false
deriving Repr, DecidableEq, Inhabited

namespace ErrorTable

/-- The error handlers, in the order in which they run. -/
def entries (t : ErrorTable) : List ErrorEntry := t.slots.toList.filterMap ErrorProposal.toEntry

def add (t : ErrorTable) (p : ErrorProposal) : RegistryStatus × ErrorTable :=
  let (status, slots) := t.slots.add p
  (status, { t with slots })

/-- Removes the error handler with a description. -/
def remove (t : ErrorTable) (description : Text) : RegistryStatus × ErrorTable :=
  match t.slots.find? description with
  | none => (.notFound, t)
  | some i => (.ok, { t with slots := t.slots.removeAt i })

/-- The entries that ask for an error, in the order in which they run. -/
def matching (t : ErrorTable) (e : SystemError) : List ErrorEntry :=
  t.entries.filter (·.matchesError e)

end ErrorTable

end Supervisor
