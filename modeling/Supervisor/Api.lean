/-
The interface of the trap system.

What the rest of a kernel calls.  Every operation first asks whether the system is ready, and
fails closed if it is not: it answers with an error or with a harmless value, and does nothing.

* `Api.register`, `Api.registerOwned` — handlers of the kernel and of a registrar;
* `Api.unregister`, `Api.unregisterOwned`, `Api.purge`, `Api.unregisterBound` — their removal;
* `Api.enableInterrupts` and its companions — interrupts;
* `Api.handleError` and its companions — errors;
* `Api.createTask`, `Api.switchTasks`, `Api.switchTask` — tasks.

Design notes: handlers of a registrar are user-protected, need a registrar other than the
kernel's, and never come before the diagnostic handlers.
-/
import Supervisor.System.Start

namespace Supervisor

/-- How a call of the interface ends. -/
inductive ApiStatus where
  | ok
  | notReady
  | registrationFailed
  | notFound
  | invalidPriority
  | locked
  | contextFailed
  | hardwareFailed
  | invalidRegistrar
  | protectedHandler
  | unauthorized
deriving Repr, DecidableEq

namespace ApiStatus

def all : List ApiStatus :=
  [ok, notReady, registrationFailed, notFound, invalidPriority, locked, contextFailed,
    hardwareFailed, invalidRegistrar, protectedHandler, unauthorized]

def name : ApiStatus → String
  | ok => "None"
  | notReady => "Trap system not initialized"
  | registrationFailed => "Failed to register handler"
  | notFound => "Handler not found"
  | invalidPriority => "Priority reserved for kernel handlers"
  | locked => "Handler storage is locked"
  | contextFailed => "Context operation failed"
  | hardwareFailed => "Hardware operation failed"
  | invalidRegistrar => "Invalid registrar ID, not original owner"
  | protectedHandler => "Cannot modify protected handler"
  | unauthorized => "Unauthorized access"

/-- The status that a change to a table of handlers is reported with. -/
def ofRegistry : RegistryStatus → ApiStatus
  | .ok => ok
  | .full | .duplicate | .invalid => registrationFailed
  | .notFound => notFound
  | .protectedEntry => protectedHandler
  | .foreignEntry => invalidRegistrar
  | .locked => locked

end ApiStatus

namespace Api

variable {σ : Type}

def isReady : Exec σ Bool := do return (← getThe (Machine σ)).system.ready

/-- Runs `body` if the system is ready and answers `otherwise` if not. -/
def whenReady {α : Type} (otherwise : α) (body : Exec σ α) : Exec σ α := do
  if ← isReady then body else return otherwise

section

variable [Client σ]

def start (mode : TrapMode) : Exec σ ApiStatus := do
  let _ ← System.start mode
  return if ← isReady then .ok else .notReady

/-! ### Trap handlers -/

/-- Registers a handler on given terms; a refusal is reported. -/
def registerOn (t : TrapType) (p : Proposal) : Exec σ ApiStatus := do
  let status ← System.register t p
  if status ≠ .ok then
    putLine (← System.console) ["[TRAP] registration of '", p.description.getD "(null)",
      "' for ", t.name, " rejected: ", status.name, "\n"]
  return .ofRegistry status

/-- Registers a handler of the kernel. -/
def register (t : TrapType) (handler : Option TrapHandler) (priority : UInt8)
    (description : Option Text) (context : Option ContextId) : Exec σ ApiStatus :=
  whenReady .notReady <|
    registerOn t ⟨handler, description, ⟨priority, .system, kernelRegistrar, context⟩⟩

/-- Registers a handler of a registrar. -/
def registerOwned (t : TrapType) (handler : Option TrapHandler) (priority : UInt8)
    (description : Option Text) (context : Option ContextId) (registrar : Registrar) :
    Exec σ ApiStatus :=
  whenReady .notReady <|
    if registrar = kernelRegistrar then return .invalidRegistrar
    else if priority < diagnosticPriority then return .invalidPriority
    else registerOn t ⟨handler, description, ⟨priority, .user, registrar, context⟩⟩

/-- Removes a handler in the name of a registrar. -/
def unregisterOwned (t : TrapType) (description : Text) (registrar : Registrar) :
    Exec σ ApiStatus :=
  whenReady .notReady do return .ofRegistry (← System.unregister t description registrar)

/-- Removes a handler in the name of the kernel. -/
def unregister (t : TrapType) (description : Text) : Exec σ ApiStatus :=
  unregisterOwned t description kernelRegistrar

/-- Removes every handler bound to a context; gives their number. -/
def purge (context : ContextId) : Exec σ (ApiStatus × Nat) :=
  whenReady (.notReady, 0) do
    let removal ← System.purge context
    return (.ofRegistry removal.status, removal.removed)

/-- Removes the handlers bound to a context that a registrar may remove; gives their number. -/
def unregisterBound (context : ContextId) (registrar : Registrar) : Exec σ (ApiStatus × Nat) :=
  whenReady (.notReady, 0) <|
    if registrar = kernelRegistrar then return (.invalidRegistrar, 0)
    else do
      let removal ← System.unregisterBound context registrar
      if removal.status ≠ .ok then return (.ofRegistry removal.status, removal.removed)
      else return (if removal.denied > 0 then .unauthorized else .ok, removal.removed)

def handlerCount (t : TrapType) : Exec σ Nat := whenReady 0 (System.handlerCount t)

def printHandlers : Exec σ Unit := whenReady () System.printHandlers

def installDiagnostics : Exec σ ApiStatus :=
  whenReady .notReady do
    return if (← System.installDiagnostics) > 0 then .ok else .registrationFailed

end

/-! ### Interrupts -/

/-- Changes the registers of the hart through the interrupt control. -/
def control {α : Type} (f : InterruptControl → Csrs → α × Csrs) : Exec σ α :=
  modifyGet fun m =>
    let (a, csrs) := f m.system.interrupts m.platform.csrs
    (a, { m with platform.csrs := csrs })

/-- Looks at the registers of the hart through the interrupt control. -/
def inspect {α : Type} (f : InterruptControl → Csrs → α) : Exec σ α := do
  let m ← getThe (Machine σ)
  return f m.system.interrupts m.platform.csrs

/-- Changes the registers of the hart, if there is a hart to control. -/
def controlLine (f : InterruptControl → Csrs → Csrs) : Exec σ ApiStatus :=
  whenReady .notReady do
    if (← getThe (Machine σ)).system.interrupts.attached then
      control fun h r => (.ok, f h r)
    else return .hardwareFailed

/-- Enables interrupts and says whether they were enabled before. -/
def enableInterrupts : Exec σ Bool := whenReady false (control InterruptControl.enable)

/-- Disables interrupts and says whether they were enabled before. -/
def disableInterrupts : Exec σ Bool := whenReady false (control InterruptControl.disable)

/-- Enables interrupts again if they were enabled before. -/
def restoreInterrupts (wasEnabled : Bool) : Exec σ Unit :=
  whenReady () (control fun h r => ((), h.restore wasEnabled r))

/-- Lets one interrupt through. -/
def enableInterrupt (i : Interrupt) : Exec σ ApiStatus := controlLine (·.enableLine i)

/-- Holds one interrupt back. -/
def disableInterrupt (i : Interrupt) : Exec σ ApiStatus := controlLine (·.disableLine i)

/-- Whether an interrupt is let through. -/
def interruptEnabled (i : Interrupt) : Exec σ Bool := whenReady false (inspect (·.lineEnabled i))

def interruptPending (i : Interrupt) : Exec σ Bool := whenReady false (inspect (·.linePending i))

def raiseSoftware : Exec σ ApiStatus := controlLine InterruptControl.raiseSoftware

/-- Takes the software interrupt back. -/
def clearSoftware : Exec σ ApiStatus := controlLine InterruptControl.clearSoftware

/-! ### Status -/

/-- The number of traps in progress. -/
def nestLevel : Exec σ Nat := whenReady 0 do return (← getThe (Machine σ)).level

def inTrap : Exec σ Bool := do return (← nestLevel) > 0

/-- How much of the hart's interrupt stack is in use, of how much there is. -/
def stackUsage : Exec σ (Option (Nat × Nat)) :=
  whenReady none do
    let core ← System.currentHart
    return some ((← getThe (Machine σ)).system.nesting.usedBytes core, interruptStackSize)

/-! ### Errors -/

def registerError (p : ErrorProposal) : Exec σ ApiStatus :=
  whenReady .notReady do return .ofRegistry (← ErrorSite.system.register p)

def unregisterError (description : Text) : Exec σ ApiStatus :=
  whenReady .notReady do return .ofRegistry (← ErrorSite.system.unregister description)

/-- The error that is raised now. -/
def createError (source : Source) (level : Level) (code : UInt16) (address : Option UInt64)
    (instruction : UInt64) : Exec σ (Option SystemError) :=
  whenReady none do return some (← ErrorSite.system.create source level code address instruction)

def isPanicMode : Exec σ Bool :=
  whenReady false ErrorSite.system.isPanicMode

def resetPanicMode : Exec σ ApiStatus :=
  whenReady .notReady do
    ErrorSite.system.reset
    return .ok

variable [Client σ]

/-- Reports an error; gives what became of it. -/
def handleError (e : SystemError) : Exec σ (ApiStatus × ErrorOutcome) :=
  whenReady (.notReady, .unhandled) do return (.ok, ← ErrorSite.system.handle e)

/-- Prints the newest `count` errors. -/
def printErrorLog (count : Nat) : Exec σ Unit := whenReady () (ErrorSite.system.printLog count)

def clearErrorLog : Exec σ Unit := whenReady () ErrorSite.system.clearLog

def printErrorHandlers : Exec σ Unit := whenReady () ErrorSite.system.print

/-! ### Tasks -/

/-- The frame with which a new task starts. -/
def createTask (entry userStack : UInt64) : Exec σ (Except ApiStatus Frame) :=
  whenReady (.error .notReady) do
    if entry = 0 || userStack = 0 then return .error .contextFailed
    let m ← getThe (Machine σ)
    let status :=
      if m.system.bound && m.platform.interfaces.csrs then m.platform.csrs.sstatus else 0
    return .ok (Frame.ofTask entry userStack status)

/-- Switches from the running task, whose image goes to `current`, to that at `next`; gives the
images as they are then. -/
def switchTasks {ι : Type} [DecidableEq ι] (memory : Tasks ι) (current next : Option ι) :
    Exec σ (ApiStatus × Tasks ι) :=
  whenReady (.notReady, memory) do
    match ← switchImages (← Machine.theNesting.read).attached memory current next with
    | .ok memory => return (.ok, memory)
    | .error e =>
      putLine (← System.console) ["[TRAP] task switch failed: ", e.name, "\n"]
      return (.contextFailed, memory)

/-- Switches between two tasks that have places of their own; gives the image of the one that was
running. -/
def switchTask (current next : Option Task) : Exec σ (ApiStatus × Option Task) := do
  let (status, memory) ← switchTasks (Side.images current next)
    (current.map fun _ => .outgoing) (next.map fun _ => .incoming)
  return (status, current.map fun _ => memory .outgoing)

end Api

end Supervisor
