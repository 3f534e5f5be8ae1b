/-
Starting the trap system.

The first request starts the system: it claims the start, ties the system to its platform,
installs the handlers that the configuration asks for, and makes the system ready.  Every later
request is turned away once the system is ready.

* `System.start` — a request to start the system;
* `System.installBasic`, `System.installErrors` — the basic handlers;
* `System.installDiagnostics` — the diagnostic handlers.
-/
import Supervisor.Trap.Handling

namespace Supervisor

variable {σ : Type} [Client σ]

namespace System

/-- The basic trap handlers with their descriptions. -/
def basicHandlers : List (TrapType × BasicHandler × String) :=
  [(.timerInterrupt, .timer, "Default Timer Handler"),
    (.externalInterrupt, .external, "Default External Interrupt Handler"),
    (.softwareInterrupt, .software, "Default Software Interrupt Handler"),
    (.systemCall, .systemCall, "Default System Call Handler"),
    (.instructionPageFault, .fault, "Default Instruction Page Fault Handler"),
    (.loadPageFault, .fault, "Default Load Page Fault Handler"),
    (.storePageFault, .fault, "Default Store Page Fault Handler"),
    (.instructionFault, .fault, "Default Instruction Fault Handler"),
    (.illegalInstruction, .illegalInstruction, "Default Illegal Instruction Handler"),
    (.breakpoint, .breakpoint, "Default Breakpoint Handler"),
    (.instructionMisaligned, .fault, "Default Instruction Misaligned Handler"),
    (.loadMisaligned, .fault, "Default Load Misaligned Handler"),
    (.storeMisaligned, .fault, "Default Store Misaligned Handler"),
    (.loadFault, .fault, "Default Load Fault Handler"),
    (.storeFault, .fault, "Default Store Fault Handler"),
    (.unknown, .unknown, "Default Unknown Trap Handler")]

/-- The basic error handlers. -/
def errorHandlers : List ErrorProposal :=
  [{ handler := some .memory, description := some "Default Memory Error Handler"
     source := some Source.memory },
    { handler := some .interrupt, description := some "Default Interrupt Error Handler"
      source := some Source.interrupt },
    { handler := some .process, description := some "Default Process Error Handler"
      source := some Source.process },
    { handler := some .syscall, description := some "Default Syscall Error Handler"
      source := some Source.syscall },
    { handler := some .fatalDiagnostics, description := some "Fatal Error Diagnostics"
      priority := diagnosticPriority, level := some Level.fatal }]

/-- The diagnostic handlers with their descriptions. -/
def diagnosticHandlers : List (TrapType × DiagnosticHandler × String) :=
  [(.instructionPageFault, .fatalFault, "Diagnostic Instruction Page Fault"),
    (.loadPageFault, .fatalFault, "Diagnostic Load Page Fault"),
    (.storePageFault, .fatalFault, "Diagnostic Store Page Fault"),
    (.instructionFault, .fatalFault, "Diagnostic Instruction Fault"),
    (.loadFault, .fatalFault, "Diagnostic Load Fault"),
    (.storeFault, .fatalFault, "Diagnostic Store Fault"),
    (.illegalInstruction, .illegalInstruction, "Diagnostic Illegal Instruction"),
    (.unknown, .fatalFault, "Diagnostic Unknown Trap"),
    (.breakpoint, .breakpoint, "Diagnostic Breakpoint")]

/-- Installs a basic trap handler; if it is refused, that is reported. -/
def installBasicHandler : TrapType × BasicHandler × String → Exec σ Unit
  | (t, h, description) => do
    let status ← register t ⟨some (.basic h), some description, {}⟩
    if status ≠ .ok then
      putLine (← console) ["[ERROR] default handler for ", t.name, " not installed: ",
        status.name, "\n"]

/-- Installs the basic trap handlers. -/
def installBasic : Exec σ Unit := basicHandlers.forM installBasicHandler

/-- Installs a basic error handler; if it is refused, that is reported. -/
def installErrorHandler (p : ErrorProposal) : Exec σ Unit := do
  let status ← ErrorSite.system.register p
  if status ≠ .ok then
    putLine (← console) ["[ERROR] default error handler '", p.description.getD [],
      "' not installed: ", status.name, "\n"]

/-- Installs the basic error handlers. -/
def installErrors : Exec σ Unit := errorHandlers.forM installErrorHandler

/-- Installs some diagnostic handlers; gives how many were not refused. -/
def installDiagnosticsFrom : List (TrapType × DiagnosticHandler × String) → Exec σ Nat
  | [] => return 0
  | (t, h, description) :: rest => do
    let status ← register t
      ⟨some (.diagnostic h), some description, { priority := diagnosticPriority }⟩
    let n ← installDiagnosticsFrom rest
    return if status = .ok then n + 1 else n

/-- Installs the diagnostic handlers; gives how many were not refused. -/
def installDiagnostics : Exec σ Nat := do
  let n ← installDiagnosticsFrom diagnosticHandlers
  putLine (← console) ["[TRAP] ", Numeral.decimal n, " diagnostic handlers installed\n"]
  return n

/-- Claims the start of the system; the answer is whether nobody has done so before. -/
def claim : Exec σ Bool :=
  Machine.theSystem.change fun s => (!s.claimed, { s with claimed := true })

/-- Ties the system to the platform, and applies the configuration to its parts. -/
def attach (mode : TrapMode) (p : Platform) (s : System) : System × Platform :=
  let interrupts : InterruptControl := ⟨p.interfaces.csrs, p.trapEntry⟩
  ({ s with
      bound := true
      interrupts
      nesting := { s.nesting with attached := p.interfaces.images }.setLimit s.config.nestLimit
      errors := { s.errors with attached := true, traced := true }
      trace := { s.trace.start p.interfaces.firmware with enabled := s.config.traced } },
    { p with csrs := interrupts.setVector mode p.csrs })

/-- The number of trap handlers, zero under a lock of the same hart. -/
def countHandlers : Exec σ Nat := locked (return (← Machine.theRegistry.read).total) (return 0)

/-- Tells how the system was set up. -/
def announceReady (mode : TrapMode) (limit installed : Nat) : Exec σ Unit := do
  let m ← getThe (Machine σ)
  putLine (← console) ["[TRAP] trap system ready: mode=", mode.name, " stvec=",
    Numeral.pointer (m.system.interrupts.vector m.platform.csrs), " max_nest=",
    Numeral.decimal limit, " handlers=", Numeral.decimal installed, "\n"]

/-- Sets the system up: everything between claiming the start and being ready. -/
def setUp (mode : TrapMode) : Exec σ Unit := do
  modify fun m =>
    let (system, platform) := attach mode m.platform m.system
    { m with system, platform }
  let limit := (← getThe (Machine σ)).system.nesting.limit
  let config := (← getThe (Machine σ)).system.config
  if config.basicHandlers then installBasic
  if config.errorHandlers then installErrors
  announceReady mode limit (← countHandlers)

/-- Makes the system ready. -/
def publish : Exec σ Unit := Machine.theSystem.update fun s => { s with ready := true }

/-- Tells that a request comes too late. -/
def ignoreRequest : Exec σ Unit := do
  putLine (← platformConsole) ["[TRAP] trap system already initialized, ignoring request\n"]

/-- What happens to a request that comes too late: it waits until the system is ready. -/
def turnAway : Exec σ Unit := do
  ignoreRequest
  unless (← getThe (Machine σ)).system.ready do throw .waits

/-- A request to start the system; the answer is whether it was this request that did. -/
def start (mode : TrapMode) : Exec σ Bool := do
  if ← claim then
    setUp mode
    publish
    return true
  else
    turnAway
    return false

end System

end Supervisor
