/-
Access to the trap system.

The registry of the trap system is changed under its lock.  A hart that holds the lock already
is turned away, and nothing changes.  Each change that succeeds is traced.

* `System.register`, `System.unregister` — one handler;
* `System.unregisterBound`, `System.purge` — the handlers bound to a context;
* `System.handlerCount`, `System.printHandlers` — the registry as it stands.
-/
import Supervisor.Listing

namespace Supervisor

variable {σ : Type}

/-- Takes an event into a trace, if it is enabled. -/
def traceEvent (trace : Part (Machine σ) Trace) (kind : EventKind) (name : Text) (value : UInt64) :
    Exec σ Bool := do
  let t ← trace.read
  if t.enabled then
    let now ← if t.clocked then readClock else pure 0
    trace.update (·.record now kind name value)
    return true
  else return false

/-- Switches from the running task, whose image goes to `current`, to that at `next`, if both are
given and the registers of the hart can be reached; gives the images as they are then. -/
def switchImages {ι : Type} [DecidableEq ι] (attached : Bool) (memory : Tasks ι)
    (current next : Option ι) : Exec σ (Except ContextStatus (Tasks ι)) :=
  match current, next with
  | some _, some _ =>
    if attached then
      Machine.thePlatform.change fun p =>
        let (memory, p') := p.switchTask memory current next
        (.ok memory, p')
    else return .error .unsupported
  | _, _ => return .error .invalid

namespace System

/-- Where output of the trap system goes. -/
def console : Exec σ Sink := do
  let m ← getThe (Machine σ)
  return if m.system.bound && m.platform.interfaces.console then .console else .nowhere

/-- The number of the running hart, zero while the system does not know its platform. -/
def currentHart : Exec σ UInt32 := do
  if (← getThe (Machine σ)).system.bound then hartId else return 0

/-- Whether the system can reach the firmware. -/
def hasFirmware : Exec σ Bool := do
  let m ← getThe (Machine σ)
  return m.system.bound && m.platform.interfaces.firmware

/-- Runs an action under the lock of the registry. -/
def locked {α : Type} (body refused : Exec σ α) : Exec σ α := do
  withLock Machine.theLock (← currentHart) body refused

/-- Takes an event into the trace of the system. -/
def note (kind : EventKind) (name : Text) (value : UInt64) : Exec σ Unit := do
  let _ ← traceEvent Machine.theTrace kind name value

def register (t : TrapType) (p : Proposal) : Exec σ RegistryStatus := do
  let status ← locked (Machine.theRegistry.change (·.add t p)) (return .locked)
  if status = .ok then note .handlerAdded t.name p.terms.registrar
  return status

/-- Removes the handler with a description. -/
def unregister (t : TrapType) (description : Text) (registrar : Registrar) :
    Exec σ RegistryStatus := do
  let status ← locked (Machine.theRegistry.change (·.remove t description registrar))
    (return .locked)
  if status = .ok then note .handlerRemoved t.name registrar
  return status

/-- What became of the handlers bound to a context. -/
structure Removal where
  status : RegistryStatus
  /-- How many were removed. -/
  removed : Nat := 0
  /-- How many the registrar was not allowed to remove. -/
  denied : Nat := 0
deriving Repr, DecidableEq

/-- Removes the handlers bound to a context that `registrar` may remove. -/
def unregisterBound (context : ContextId) (registrar : Registrar) : Exec σ Removal := do
  let removal ← locked
    (Machine.theRegistry.change fun r =>
      let (removed, r') := r.removeBound context registrar
      (⟨.ok, removed, r.countBound context - removed⟩, r'))
    (return ⟨.locked, 0, 0⟩)
  if removal.removed > 0 then note .handlerRemoved "context" context
  return removal

/-- Removes every handler bound to a context. -/
def purge (context : ContextId) : Exec σ Removal := do
  let removal ← locked
    (Machine.theRegistry.change fun r => let (n, r') := r.purge context; (⟨.ok, n, 0⟩, r'))
    (return ⟨.locked, 0, 0⟩)
  if removal.status = .ok then note .contextCleanup "purge" context
  return removal

/-- The number of handlers of a trap type, zero under a lock of the same hart. -/
def handlerCount (t : TrapType) : Exec σ Nat :=
  locked (return (← Machine.theRegistry.read).count t) (return 0)

/-- Prints the registry, unless the hart holds its lock already. -/
def printHandlers [Client σ] : Exec σ Unit :=
  locked (do Registry.print Machine.theRegistry (← console)) (return)

end System

end Supervisor
