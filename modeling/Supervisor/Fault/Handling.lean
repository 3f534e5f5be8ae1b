/-
Handling errors.

A reported error is offered to the handlers that ask for it, in order, until one claims it; what
became of it goes into the log.  A fatal error latches panic mode before anybody sees it, and if
nobody helps, the system halts.  While panic mode is latched, errors are logged and ignored.

* `ErrorSite.handle` — reports an error, through `receive`, `takers`, `offer` and `conclude`;
* `ErrorSite.register`, `ErrorSite.unregister` — changes to the handlers;
* `ErrorSite.isPanicMode`, `ErrorSite.reset` — panic mode as it stands, and the way out of it;
* `ErrorSite.halt` — the end of the system;
* `ErrorSite.printLog`, `ErrorSite.print` — the log and the handlers as they stand.

Design notes: an `ErrorSite` is a table of error handlers and the trace beside it.  The machine
has one of its own, `ErrorSite.system`, and clients may have others.  Handlers run after the lock
of the table was given back, on the entries as they were then, so they may change the table and
report errors themselves.
-/
import Supervisor.System.Access

namespace Supervisor

variable {σ : Type}

/-- A table of error handlers and the trace beside it. -/
structure ErrorSite (σ : Type) where
  table : Part (Machine σ) ErrorTable
  trace : Part (Machine σ) Trace
  /-- The trace is no part of the table. -/
  table_trace : table.Apart trace := by exact fun _ _ => rfl
  /-- The platform is no part of the table. -/
  table_platform : table.Apart Machine.thePlatform := by exact fun _ _ => rfl
  /-- The table is no part of the platform. -/
  platform_table : Machine.thePlatform.Apart table := by exact fun _ _ => rfl
  /-- The trace is no part of the platform. -/
  platform_trace : Machine.thePlatform.Apart trace := by exact fun _ _ => rfl

/-- Asks the firmware to shut down, which ends the run. -/
def shutDown {α : Type} (reason : UInt32) : Exec σ α := do
  Machine.thePlatform.update fun p =>
    { p with shutdowns := p.shutdowns + 1 }.write "[SBI] system shutdown requested\n"
  throw (.halt reason false)

/-- Asks the firmware to restart, which ends the run. -/
def restart {α : Type} (reason : UInt32) (reboot : Bool) : Exec σ α := do
  Machine.thePlatform.update fun p =>
    { p with shutdowns := p.shutdowns + 1 }.write "[SBI] system reset requested\n"
  throw (.halt reason reboot)

/-- Asks the platform to let the hart sleep. -/
def sleep : Exec σ Unit := do
  if ← Machine.thePlatform.change Platform.idle then throw .idle

/-- Lets the hart sleep again and again, at most `rounds` times. -/
def sleepFor {α : Type} : (rounds : Nat) → Exec σ α
  | 0 => throw .waits
  | rounds + 1 => do
    let _ ← hartId
    sleep
    sleepFor rounds

namespace ErrorSite

/-- The errors of the trap system. -/
def system : ErrorSite σ where
  table := Machine.theErrors
  trace := Machine.theTrace

def log (s : ErrorSite σ) : Part (Machine σ) ErrorLog :=
  s.table.comp { get := (·.log), set l t := { t with log := l } }

def lock (s : ErrorSite σ) : Part (Machine σ) Spinlock :=
  s.table.comp { get := (·.lock), set l t := { t with lock := l } }

/-- Where output of a site goes. -/
def console (s : ErrorSite σ) : Exec σ Sink := do
  if (← s.table.read).attached then platformConsole else return .nowhere

/-- The number of the running hart, zero while the site does not know the platform. -/
def currentHart (s : ErrorSite σ) : Exec σ UInt32 := do
  if (← s.table.read).attached then hartId else return 0

/-- Whether the site can reach the firmware. -/
def hasFirmware (s : ErrorSite σ) : Exec σ Bool := do
  return (← s.table.read).attached && (← getThe (Machine σ)).platform.interfaces.firmware

/-- Runs an action under the lock of a site. -/
def locked {α : Type} (s : ErrorSite σ) (body refused : Exec σ α) : Exec σ α := do
  withLock s.lock (← s.currentHart) body refused

def isPanicMode (s : ErrorSite σ) : Exec σ Bool := do return (← s.table.read).panicMode

def reset (s : ErrorSite σ) : Exec σ Unit := s.table.update fun t => { t with panicMode := false }

/-- Takes an event into the trace, if errors are traced. -/
def note (s : ErrorSite σ) (kind : EventKind) (name : Text) (value : UInt64) : Exec σ Unit := do
  if (← s.table.read).traced then
    let _ ← traceEvent s.trace kind name value

def register (s : ErrorSite σ) (p : ErrorProposal) : Exec σ RegistryStatus := do
  if p.handler.isNone || p.description.isNone then return .invalid
  s.locked (s.table.change (·.add p)) (return .locked)

/-- Removes the error handler with a description. -/
def unregister (s : ErrorSite σ) (description : Text) : Exec σ RegistryStatus :=
  s.locked (s.table.change (·.remove description)) (return .locked)

/-- Puts an error into the log, unless the hart holds the lock already. -/
def record (s : ErrorSite σ) (e : SystemError) (outcome : ErrorOutcome) : Exec σ Unit :=
  s.locked (s.log.update (·.push ⟨e, outcome.helped, outcome⟩)) (return)

/-- The error that is raised now. -/
def create (s : ErrorSite σ) (source : Source) (level : Level) (code : UInt16)
    (address : Option UInt64) (instruction : UInt64) : Exec σ SystemError := do
  let timestamp ← if ← s.hasFirmware then readClock else pure 0
  return ⟨ErrorCode.make source level code, address, instruction, timestamp⟩

variable [Client σ]

/-- Prints the newest `count` errors, unless the hart holds the lock already. -/
def printLog (s : ErrorSite σ) (count : Nat) : Exec σ Unit :=
  s.locked (do ErrorLog.print s.log count (← s.console)) (return)

/-- Empties the log, unless the hart holds the lock already. -/
def clearLog (s : ErrorSite σ) : Exec σ Unit := s.locked (s.log.update fun _ => {}) (return)

def entryLine (i : Nat) (e : ErrorEntry) : List Text :=
  ["  [", Numeral.decimal i, "] prio=", Numeral.decimal e.priority.toNat, " ", e.description,
    " source=", (e.source.map Source.name).getD "*", " level=", (e.level.map Level.name).getD "*",
    "\n"]

/-- Prints the error handlers, unless the hart holds the lock already. -/
def print (s : ErrorSite σ) : Exec σ Unit := do
  let sink ← s.console
  s.locked
    (do
      let entries := (← s.table.read).entries
      putLine sink ["=== Error handlers (", Numeral.decimal entries.length, ") ===\n"]
      entries.zipIdx.forM fun (e, i) => putLine sink (entryLine i e))
    (return)

/-- The number of error handlers, zero under a lock of the same hart. -/
def handlerCount (s : ErrorSite σ) : Exec σ Nat :=
  s.locked (return (← s.table.read).slots.count) (return 0)

/-- The number of errors in the log, zero under a lock of the same hart. -/
def logged (s : ErrorSite σ) : Exec σ Nat :=
  s.locked (return (← s.log.read).size) (return 0)

/-- An error in the log, counted from the oldest; none under a lock of the same hart. -/
def logEntry (s : ErrorSite σ) (i : Nat) : Exec σ (Option LogRecord) :=
  s.locked (return (← s.log.read).get? i) (return none)

end ErrorSite

variable [Client σ]

/-- What the machine does about errors by itself. -/
def ErrorHandler.run (h : ErrorHandler) (e : SystemError) : Exec σ ErrorOutcome := do
  let code := Numeral.decimal e.code.code.toNat
  let sink ← System.console
  match h with
  | .memory =>
    if e.code.code = 1 then
      putLine sink ["[ERROR] memory: page fault, attempting recovery\n"]
      return .partially
    else if e.code.code = 2 then
      putLine sink ["[ERROR] memory: out of memory\n"]
      return .unhandled
    else if e.code.code = 3 then
      putLine sink ["[ERROR] memory: invalid access at ", Numeral.pointer (e.address.getD 0), "\n"]
      return .handled
    else
      putLine sink ["[ERROR] memory: unknown code ", code, "\n"]
      return .unhandled
  | .interrupt =>
    putLine sink ["[ERROR] interrupt error ", code, " acknowledged\n"]
    return .handled
  | .process =>
    putLine sink ["[ERROR] process error ", code, " acknowledged\n"]
    return .handled
  | .syscall =>
    putLine sink ["[ERROR] syscall error ", code, " acknowledged\n"]
    return .handled
  | .fatalDiagnostics =>
    let m ← getThe (Machine σ)
    putLine sink ["[FATAL] ", e.line, "\n[FATAL] nest level ", Numeral.decimal m.level, ", ",
      Numeral.decimal m.system.errors.log.written, " errors reported so far\n"]
    ErrorSite.system.printLog 5
    return .unhandled
  | .client n => Client.errorHandler n e

namespace ErrorSite

/-- Offers an error to the handlers of entries in order, until one claims it; gives the outcome,
which was `before` so far. -/
def offer (e : SystemError) : (entries : List ErrorEntry) → (before : ErrorOutcome) →
    Exec σ ErrorOutcome
  | [], before => return before
  | entry :: entries, before => do
    match ← entry.handler.run e with
    | .handled => return .handled
    | next => offer e entries (before.combine next)

/-- Lets the hart sleep for good, or wait if there is no platform. -/
def sleepForGood {α : Type} (s : ErrorSite σ) : Exec σ α := do
  if (← s.table.read).attached then
    match (← getThe (Machine σ)).platform.idlePeriod with
    | some rounds => sleepFor rounds
    | none => throw .waits
  else throw .waits

/-- Ends the run: prints the log and asks the firmware to shut down, or sleeps for good. -/
def halt {α : Type} (s : ErrorSite σ) (e : SystemError) : Exec σ α := do
  let sink ← s.console
  putLine sink ["[FATAL] unhandled fatal error, system halting\n[FATAL] ", e.line, "\n"]
  s.printLog logCapacity
  if ← s.hasFirmware then shutDown 1
  s.sleepForGood

/-- Tells that panic mode was latched, and why. -/
def announceLatch (s : ErrorSite σ) (e : SystemError) (sink : Sink) : Exec σ Unit := do
  s.note .panicLatched "fatal" e.code.raw.toUInt64
  putLine sink ["[FATAL] ", e.line, "\n"]

/-- Latches panic mode. -/
def latch (s : ErrorSite σ) (e : SystemError) (sink : Sink) : Exec σ Unit := do
  s.table.update fun t => { t with panicMode := true }
  s.announceLatch e sink

/-- Takes notice of an error, and latches panic mode if it is fatal; gives where output about it
goes.  Nothing, if panic mode was latched before: then the error is put into the log and left. -/
def receive (s : ErrorSite σ) (e : SystemError) : Exec σ (Option Sink) := do
  let sink ← s.console
  s.note .errorRaised e.source.name e.code.raw.toUInt64
  if (← s.table.read).panicMode then
    s.record e .ignored
    putLine sink ["[PANIC] ignoring error while in panic mode: ", e.line, "\n"]
    return none
  if e.isFatal then s.latch e sink
  return some sink

/-- The entries that ask for an error, none while the hart holds the lock already. -/
def takers (s : ErrorSite σ) (e : SystemError) (sink : Sink) : Exec σ (List ErrorEntry) :=
  s.locked (return (← s.table.read).matching e)
    (do
      putLine sink ["[ERROR] handler table busy on this hart, dispatch skipped\n"]
      return [])

/-- Puts an error into the log with its outcome, and halts if it is fatal and nobody helped. -/
def conclude (s : ErrorSite σ) (e : SystemError) (sink : Sink) (outcome : ErrorOutcome) :
    Exec σ ErrorOutcome := do
  s.record e outcome
  putLine sink ["[ERROR] ", e.line, " -> ", outcome.name, "\n"]
  if e.isFatal && !outcome.helped then s.halt e
  return outcome

/-- Offers an error to the entries that ask for it; gives the outcome, if there is a way on. -/
def settle (s : ErrorSite σ) (e : SystemError) (sink : Sink) : Exec σ ErrorOutcome := do
  let entries ← s.takers e sink
  let outcome ← offer e entries .unhandled
  s.conclude e sink outcome

/-- Reports an error; gives what became of it. -/
def handle (s : ErrorSite σ) (e : SystemError) : Exec σ ErrorOutcome := do
  match ← s.receive e with
  | none => return .ignored
  | some sink => s.settle e sink

end ErrorSite

end Supervisor
