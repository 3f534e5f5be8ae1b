/-
Scenarios.

A scenario drives the machine from outside: it says how the machine is set up, and which
operations are carried out one after the other.  Handlers, hooks and guarded sections run
operations of their own; these stand in a table of routines, and operations refer to them by
number.

* the inductive types ending in `Op` — the operations, by the part of the machine they work on;
* `Step` — an operation with the label under which it is reported;
* `Routine` — operations that run when something happens;
* `Scenario` — all of it.

Design notes: besides the machine's own tables a scenario has spare ones that nothing else uses;
`own` in an operation asks for the machine's.  Where a text may be missing it is an `Option`.
-/
import Supervisor.Api

namespace Supervisor.Scenario

/-- The number of a routine. -/
abbrev RoutineId := Nat

/-- Operations on texts and on memory. -/
inductive TextOp where
  | copy (source : Option Text) (size : Nat) (present : Bool)
  | append (target : Text) (source : Option Text) (limit : Nat)
  | length (t : Option Text)
  | order (a b : Option Text)
  | equal (a : Option Text) (b : Text)
  | classify (t : Text)
  | number32 (t : Text)
  | number64 (t : Text)
  | numeral32 (v : UInt32) (size : Nat) (base : Int)
  | numeral64 (v : UInt64) (size : Nat) (base : Int)
  | hexNumeral (v : UInt64) (size : Nat) (marked : Bool)
  | tokens (t : Text) (delimiter : UInt8) (count : Nat)
  | format (f : Option Text) (size : Nat) (args : List Format.Arg) (present : Bool)
  | printFormat (f : Option Text) (args : List Format.Arg) (shown : Bool)
  | memoryCopy (target source : Text) (count : Nat)
  | memoryFill (target : Text) (c : UInt8) (count : Nat)
  | memoryMove (block : Text) (source target count : Nat)
  | memoryOrder (a b : Text) (count : Nat)
  | memoryFind (block : Text) (c : UInt8) (count : Nat)
  | difference (a b : Option Text)
  | earlyOutput (t : Option Text)

/-- The families of names. -/
inductive NameKind where
  | trapType
  | trapMode
  | trapError
  | registryStatus
  | contextStatus
  | errorLevel
  | errorSource
  | errorOutcome
  | poolStatus
  | apiStatus
  | eventKind
  | interrupt
  | exception
deriving Repr, DecidableEq

/-- Operations on the vocabulary of the machine. -/
inductive TermOp where
  | name (kind : NameKind) (v : UInt64)
  | cause (bits : UInt64)
  | causeFrom (interrupt : Bool) (code : UInt8)
  | frameInfo (f : Frame)
  | errorCode (c : ErrorCode)
  | errorText (e : SystemError) (size : Nat)
  | dump (f : Frame) (shown : Bool)

inductive PlatformOp where
  | clock (c : Clock)
  | hart (id : Option UInt32)
  | csrRead (r : Option Csr)
  | csrWrite (r : Option Csr) (v : UInt64)
  | csrSet (r : Option Csr) (v : UInt64)
  | csrClear (r : Option Csr) (v : UInt64)
  | csrReset
  | register (i : Nat)
  | setRegister (i : Nat) (v : UInt64)
  | programCounter
  | image
  | resume (f : Frame)
  | switchTask (current : Bool) (next : Option Task)
  | time
  | setTimer (v : UInt64)
  | deadline
  | sendInterrupt (mask : UInt64)
  | shutDown (reason : UInt32)
  | restart (type reason : UInt32)
  | shutdowns
  | firmwareWrite (t : Text)
  | firmwareRead
  | firmwareInfo
  | typeIn (t : Text)
  | readIn
  | write (t : Option Text)
  | writeByte (c : UInt8)
  | echo (t : Option Text)
  | bringUp
  | trapEntry (v : UInt64)
  | info
  | panic (message file : Option Text) (line : Int)
  | sleep
  | threadHarts (count : Nat)

/-- Operations on the spare lock. -/
inductive LockOp where
  | tryAcquire (core : UInt32)
  | acquire (core : UInt32)
  | held (core : UInt32)
  | release
  | holding (core : UInt32) (body : RoutineId)
  | contend (mine core : UInt32)

inductive InterruptOp where
  | attach (csrs : Bool) (entry : UInt64)
  | setVector (mode : TrapMode)
  | vector
  | enable
  | disable
  | restore (wasEnabled : Bool)
  | enabled
  | enableLine (i : Interrupt)
  | disableLine (i : Interrupt)
  | line (i : Interrupt)
  | raiseSoftware
  | clearSoftware
  | lastTrap

/-- Which frame slots an operation works on. -/
inductive NestingChoice where
  | own
  | spare (second : Bool)
deriving Repr, DecidableEq

/-- A field of a frame. -/
inductive FrameField where
  | sepc
  | stval
  | sstatus
  | scause
  | register (i : Nat)
deriving Repr, DecidableEq

inductive NestingOp where
  | attach (images : Bool)
  | enter (core : UInt32) (sepc : UInt64)
  | leave (core : UInt32)
  | level
  | setLimit (limit : UInt64)
  | usage (core : UInt32)
  | frame (level : Nat) (core : UInt32)
  | guarded (core : UInt32) (body : RoutineId)
  | image
  | resume (f : Frame)
  | switchTask (current : Bool) (next : Option Task)
  | prepare (entry userStack status : UInt64)
  | sizes
  | setField (field : FrameField) (v : UInt64)
  | advance (bytes : UInt64)

/-- Operations on the spare registry. -/
inductive RegistryOp where
  | add (t : TrapType) (p : Proposal)
  | remove (t : TrapType) (description : Text) (registrar : Registrar)
  | removeBound (context : ContextId) (registrar : Registrar)
  | purge (context : ContextId)
  | countBound (context : ContextId)
  | count (t : TrapType)
  | total
  | list (t : TrapType)
  | snapshot (t : TrapType) (limit : Nat)
  | dispatch (t : TrapType) (f : Frame) (shown : Bool)
  | permission (terms : Terms) (registrar : Registrar)
  | print (shown : Bool)
  | clear

inductive TraceOp where
  | start (clocked : Bool)
  | enable (on : Bool)
  | record (kind : EventKind) (name : Text) (v : UInt64) (count : Nat)
  | print (shown : Bool)
  | clear
  | size
  | event (i : Nat)

/-- Operations on the spare log of errors. -/
inductive LogOp where
  | add (r : LogRecord) (count : Nat)
  | entry (i : Nat)
  | print (count : Nat) (shown : Bool)
  | clear

inductive ErrorOp where
  | attach (platform traced : Bool)
  | add (p : ErrorProposal)
  | remove (description : Text)
  | handle (e : SystemError)
  | create (c : ErrorCode) (address : Option UInt64) (instruction : UInt64)
  | state
  | reset
  | printLog (count : Nat)
  | clearLog
  | print
  | entry (i : Nat)

inductive SystemOp where
  | start (mode : TrapMode)
  | trap (f : Option Frame)
  | add (t : TrapType) (p : Proposal)
  | remove (t : TrapType) (description : Text) (registrar : Registrar)
  | removeBound (context : ContextId) (registrar : Registrar) (denied : Bool)
  | purge (context : ContextId)
  | print
  | count (t : TrapType)
  | panic (message : Option Text)
  | installDiagnostics
  | installBasic (errors : Bool)
  | state
  | race (count : Nat) (mode : TrapMode)

/-- A handle from the list of handles, and how it is changed before it is used. -/
structure HandleChoice where
  index : Nat
  id : Option ContextId
  tokenMask : UInt32
  versionShift : UInt32
deriving Repr, DecidableEq

/-- Operations on the spare pool. -/
inductive PoolOp where
  | create (name : Text) (count : Nat)
  | validate (h : HandleChoice)
  | destroy (h : HandleChoice) (counted : Bool)
  | getState (h : HandleChoice)
  | setState (h : HandleChoice) (v : UInt8)
  | getName (h : HandleChoice) (size : Nat)
  | count
  | print (shown : Bool)

inductive ApiOp where
  | start (mode : TrapMode)
  | isReady
  | add (t : TrapType) (p : Proposal)
  | addOwned (t : TrapType) (p : Proposal)
  | remove (t : TrapType) (description : Text)
  | removeOwned (t : TrapType) (description : Text) (registrar : Registrar)
  | purge (context : ContextId) (counted : Bool)
  | removeBound (context : ContextId) (registrar : Registrar) (counted : Bool)
  | count (t : TrapType)
  | print
  | installDiagnostics
  | enable
  | disable
  | restore (wasEnabled : Bool)
  | enableLine (i : Interrupt)
  | disableLine (i : Interrupt)
  | line (i : Interrupt)
  | raiseSoftware
  | clearSoftware
  | status
  | newContextId
  | newRegistrar
  | addError (p : ErrorProposal)
  | removeError (description : Text)
  | createError (c : ErrorCode) (address : Option UInt64) (instruction : UInt64)
  | handleError (e : SystemError) (counted : Bool)
  | printErrorLog (count : Nat)
  | clearErrorLog
  | printErrorHandlers
  | resetPanicMode
  | createTask (entry userStack : UInt64)
  | switchTask (current : Bool) (next : Option Task)

inductive ConsoleOp where
  | runLine (line : Text) (shown : Bool)
  | type (t : Text) (shown : Bool)
  | help (shown : Bool)
  | add (name : Option Text) (number : Nat) (help : Option Text)
  | kernel (input : Text) (hart : UInt64)

inductive Op where
  | text (op : TextOp)
  | term (op : TermOp)
  | platform (op : PlatformOp)
  | hook (pattern : Text) (body : RoutineId)
  | lock (op : LockOp)
  | interrupt (own : Bool) (op : InterruptOp)
  | nesting (choice : NestingChoice) (op : NestingOp)
  | registry (op : RegistryOp)
  | trace (own : Bool) (op : TraceOp)
  | log (op : LogOp)
  | error (own : Bool) (op : ErrorOp)
  | system (op : SystemOp)
  | pool (op : PoolOp)
  | api (op : ApiOp)
  | console (spare : Bool) (op : ConsoleOp)

/-- An operation with the label under which it is reported. -/
structure Step where
  label : String
  op : Op

/-- Operations that run when something happens. -/
inductive Routine where
  | trap (description : Text) (verdict : Verdict) (steps : List Step)
  | error (description : Text) (outcome : ErrorOutcome) (steps : List Step)
  /-- A hook or the body of a guarded section. -/
  | plain (steps : List Step)

/-- The operations of a routine. -/
def Routine.steps : Routine → List Step
  | trap _ _ steps => steps
  | error _ _ steps => steps
  | plain steps => steps

end Supervisor.Scenario

namespace Supervisor

open Scenario

/-- A machine and what is done with it. -/
structure Scenario where
  /-- Whether the machine finds the standard platform by itself. -/
  standard : Bool := false
  /-- What the machine can reach of a platform that it is given. -/
  interfaces : Interfaces := {}
  config : Config := {}
  routines : Array Routine := #[]
  steps : List Step := []

end Supervisor
