/-
Trap handlers.

A handler looks at the frame of a trap, may change it, and ends with a verdict: the trap is
handled, passed on, or failed for a reason.  The machine brings some handlers of its own; the
handlers of its clients are known to it by number.

An entry of the registry also says who may remove it.  An entry under system protection can be
removed by the kernel only, one under user protection only by the registrar that made it.
-/
import Supervisor.Text
import Supervisor.Trap.Cause

namespace Supervisor

/-- Why a handler failed. -/
inductive TrapError where
  | none
  | handlerFailed
  | noHandler
deriving Repr, DecidableEq

namespace TrapError

def all : List TrapError := [none, handlerFailed, noHandler]

def name : TrapError → String
  | none => "None"
  | handlerFailed => "HandlerFailed"
  | noHandler => "NoHandler"

end TrapError

/-- How a handler ends. -/
inductive Verdict where
  | handled
  | pass
  | failed (error : TrapError)
deriving Repr, DecidableEq

/-- Whether a verdict ends the search for a handler. -/
def Verdict.isHandled : Verdict → Bool
  | .handled => true
  | _ => false

/-- The handlers that stand last in each list: they acknowledge what needs no client, and only
report the rest. -/
inductive BasicHandler where
  | timer
  | software
  | external
  | systemCall
  | breakpoint
  | illegalInstruction
  | fault
  | unknown
deriving Repr, DecidableEq

/-- The handlers that print the whole frame. -/
inductive DiagnosticHandler where
  | fatalFault
  | illegalInstruction
  | breakpoint
deriving Repr, DecidableEq

/-- What an entry of the registry runs. -/
inductive TrapHandler where
  | basic (handler : BasicHandler)
  | diagnostic (handler : DiagnosticHandler)
  /-- Counts a tick and sets the timer for the next one. -/
  | periodicTick
  /-- A handler of a client, by its number. -/
  | client (number : Nat)
deriving Repr, DecidableEq

/-- Who may remove an entry. -/
inductive Protection where
  | system
  | user
deriving Repr, DecidableEq, Inhabited

/-- The number of whoever registers handlers. -/
abbrev Registrar := UInt64

/-- The registrar that stands for the kernel. -/
def kernelRegistrar : Registrar := 0

/-- The number of an execution context that handlers can be bound to. -/
abbrev ContextId := UInt64

/-- The place of handlers that do not ask for another one; lower runs first. -/
def defaultPriority : UInt8 := 100

/-- The place of the diagnostic handlers. -/
def diagnosticPriority : UInt8 := 10

/-- What makes up an entry besides its handler and its description. -/
structure Terms where
  /-- Its place among the entries of its trap type; lower runs first. -/
  priority : UInt8 := defaultPriority
  /-- Who may remove it. -/
  protection : Protection := .system
  /-- Who registered it. -/
  registrar : Registrar := kernelRegistrar
  /-- The context that it goes away with. -/
  context : Option ContextId := none
deriving Repr, DecidableEq, Inhabited

/-- A request to register a handler; it may lack the handler or its description. -/
structure Proposal where
  handler : Option TrapHandler
  description : Option Text
  terms : Terms := {}
deriving Repr, DecidableEq

structure Entry where
  handler : TrapHandler
  description : Text
  terms : Terms
deriving Repr, DecidableEq

/-- Whether a removal is allowed, and if not, why. -/
inductive Permission where
  | granted
  | protectedEntry
  | foreignEntry
deriving Repr, DecidableEq

/-- Whether `registrar` may remove an entry registered on these terms. -/
def Terms.permission (t : Terms) (registrar : Registrar) : Permission :=
  match t.protection with
  | .system => if registrar = kernelRegistrar then .granted else .protectedEntry
  | .user => if registrar = t.registrar then .granted else .foreignEntry

/-- Whether an entry registered on these terms is bound to a context. -/
def Terms.isBoundTo (t : Terms) (context : ContextId) : Bool := t.context == some context

/-- How a change to a table of handlers ends. -/
inductive RegistryStatus where
  | ok
  | full
  | duplicate
  | invalid
  | notFound
  | protectedEntry
  | foreignEntry
  | locked
deriving Repr, DecidableEq

namespace RegistryStatus

def all : List RegistryStatus :=
  [ok, full, duplicate, invalid, notFound, protectedEntry, foreignEntry, locked]

def name : RegistryStatus → String
  | ok => "OK"
  | full => "TableFull"
  | duplicate => "Duplicate"
  | invalid => "InvalidHandler"
  | notFound => "NotFound"
  | protectedEntry => "ProtectedHandler"
  | foreignEntry => "InvalidRegistrar"
  | locked => "Locked"

end RegistryStatus

end Supervisor
