/-
Operations on the trap system, its interface and the consoles.

* `SystemOp.perform` — the trap system itself;
* `ApiOp.perform` — its interface;
* `ConsoleOp.perform` — operator consoles, and the kernel as a whole.
-/
import Supervisor.Scenario.Hardware
import Supervisor.Scenario.Tables

namespace Supervisor.Scenario

section

variable [Client Bench]

def stateReport : Run Report := do
  let core ← System.currentHart
  let counts ← TrapType.all.mapM fun t => return Report.count (← System.handlerCount t)
  let m ← getThe World
  let p := m.platform
  return .record [("ready", .flag m.system.ready), ("core", .count core.toNat),
    ("nest", .count m.level), ("max", .count m.system.nesting.limit), ("counts", .list counts),
    ("panic", .flag m.system.errors.panicMode),
    ("errors", .word m.system.errors.log.written.toUInt64),
    ("trace", .count m.system.trace.events.size), ("sstatus", .word p.csrs.sstatus),
    ("sie", .word p.csrs.sie), ("sip", .word p.csrs.sip), ("stvec", .word p.csrs.stvec),
    ("deadline", .word p.deadline), ("shutdowns", .count p.shutdowns)]

/-- Takes the trap of a frame; if that is stopped, the frame is noted as an event. -/
def performTrap (f : Option Frame) : Run Report :=
  ExceptT.mk do
    match ← takeTrapOf f with
    | (.ok (), f') => return .ok (.frame f')
    | (.error stop, f') =>
      if f.isSome then ExceptT.run (emit f') *> return .error stop
      else return .error stop
where
  /-- Notes the frame of a trap that was stopped. -/
  emit (f : Frame) : Run Unit := Bench.emit (.frame f)

/-- Requests to start the system, each as a new thread; gives how many of them started it, and how
many found it ready afterwards. -/
def startOnThreads (mode : TrapMode) : (count : Nat) → Run (Nat × Nat)
  | 0 => return (0, 0)
  | count + 1 => do
    let (won, ready) ← onNewThread do
      let won ← System.start mode
      let ready ← Api.isReady
      return (won, ready)
    let (winners, readers) ← startOnThreads mode count
    return ((if won then 1 else 0) + winners, (if ready then 1 else 0) + readers)

/-- Requests to start the system by several threads.  The lines on the console, sorted, go into
the answer, and the console is empty afterwards, also of a line that was not ended. -/
def performRace (count : Nat) (mode : TrapMode) : Run Report := do
  let _ ← hartId
  let (winners, ready) ← startOnThreads mode count
  let lines := Text.lines (← Machine.thePlatform.read).console
  Machine.thePlatform.update fun p => { p with writes := [] }
  return .record [("winners", .count winners), ("ready", .count ready),
    ("lines", .list ((lines.mergeSort fun a b => decide (a ≤ b)).map .text))]

namespace SystemOp

def perform : SystemOp → Run Report
  | start mode => return .flag (← System.start mode)
  | trap f => performTrap f
  | add t p => return .name (← System.register t p).name
  | remove t description registrar =>
    return .name (← System.unregister t description registrar).name
  | removeBound context registrar denied => do
    let r ← System.unregisterBound context registrar
    return .record [("status", .name r.status.name), ("removed", .count r.removed),
      ("denied", if denied then .count r.denied else .nothing)]
  | purge context => do
    let r ← System.purge context
    return .record [("status", .name r.status.name), ("removed", .count r.removed)]
  | print => do
    System.printHandlers
    return .nothing
  | count t => return .count (← System.handlerCount t)
  | panic message => panicAt message none 0
  | installDiagnostics => return .count (← System.installDiagnostics)
  | installBasic errors => do
    if errors then System.installErrors else System.installBasic
    return .nothing
  | state => stateReport
  | race n mode => performRace n mode

end SystemOp

/-- The answer of a removal of handlers that were bound to a context. -/
def removalReport (counted : Bool) (r : ApiStatus × Nat) : Report :=
  .record [("status", .name r.1.name), ("removed", .count (if counted then r.2 else untouchedCount))]

namespace ApiOp

def perform : ApiOp → Run Report
  | start mode => return .name (← Api.start mode).name
  | isReady => return .flag (← Api.isReady)
  | add t p =>
    return .name (← Api.register t p.handler p.terms.priority p.description p.terms.context).name
  | addOwned t p =>
    return .name (← Api.registerOwned t p.handler p.terms.priority p.description p.terms.context
      p.terms.registrar).name
  | remove t description => return .name (← Api.unregister t description).name
  | removeOwned t description registrar =>
    return .name (← Api.unregisterOwned t description registrar).name
  | purge context counted => return removalReport counted (← Api.purge context)
  | removeBound context registrar counted =>
    return removalReport counted (← Api.unregisterBound context registrar)
  | count t => return .count (← Api.handlerCount t)
  | print => do
    Api.printHandlers
    return .nothing
  | installDiagnostics => return .name (← Api.installDiagnostics).name
  | enable => return .flag (← Api.enableInterrupts)
  | disable => return .flag (← Api.disableInterrupts)
  | restore wasEnabled => do
    Api.restoreInterrupts wasEnabled
    return .nothing
  | enableLine i => return .name (← Api.enableInterrupt i).name
  | disableLine i => return .name (← Api.disableInterrupt i).name
  | line i => do
    let enabled ← Api.interruptEnabled i
    let pending ← Api.interruptPending i
    return .record [("enabled", .flag enabled), ("pending", .flag pending)]
  | raiseSoftware => return .name (← Api.raiseSoftware).name
  | clearSoftware => return .name (← Api.clearSoftware).name
  | status => do
    let busy ← Api.inTrap
    let level ← Api.nestLevel
    let usage ← Api.stackUsage
    let latched ← Api.isPanicMode
    return .record [("in", .flag busy), ("nest", .count level),
      ("usage", .option (fun (used, size) => .list [.count used, .count size]) usage),
      ("panic", .flag latched)]
  | newContextId => return .word (← Supervisor.newContextId)
  | newRegistrar => return .word (← Supervisor.newRegistrar)
  | addError p => return .name (← Api.registerError p).name
  | removeError description => return .name (← Api.unregisterError description).name
  | createError c address instruction =>
    return .option .error (← Api.createError c.source c.level c.code address instruction)
  | handleError e counted => do
    let (result, outcome) ← Api.handleError e
    return .record [("status", .name result.name),
      ("result", if counted then .name outcome.name else .nothing)]
  | printErrorLog n => do
    Api.printErrorLog n
    return .nothing
  | clearErrorLog => do
    Api.clearErrorLog
    return .nothing
  | printErrorHandlers => do
    Api.printErrorHandlers
    return .nothing
  | resetPanicMode => return .name (← Api.resetPanicMode).name
  | createTask entry userStack => do
    match ← Api.createTask entry userStack with
    | .ok f => return .record [("status", .name ApiStatus.ok.name), ("ctx", .frame f)]
    | .error e => return .record [("status", .name e.name), ("ctx", .frame {})]
  | switchTask current next => do
    let (result, image) ← Api.switchTask (if current then some {} else none) next
    return .record [("status", .name result.name), ("cur", .task (image.getD {}))]

end ApiOp

/-- What a command of the bench runs; numbers beyond its commands have no action. -/
def commandAction (number : Nat) : Option CommandAction :=
  if number < 3 then some (.client number) else none

namespace ConsoleOp

def perform (table : Part World CommandTable) : ConsoleOp → Run Report
  | runLine line shown => return .number (← CommandTable.runLine table line (← sinkFor shown))
  | type t shown => do
    let sink ← sinkFor shown
    t.forM fun c => CommandTable.takeByte table c sink
    return .nothing
  | help shown => do
    CommandTable.print table (← sinkFor shown)
    return .count (← table.read).commands.length
  | add name number text =>
    return .flag (← table.change (·.add name (commandAction number) text))
  | kernel input hart => do
    Machine.thePlatform.update fun p => { p with input := p.input ++ input ++ "\nreboot\n" }
    Supervisor.kernel hart (← Machine.thePlatform.read).input.length

end ConsoleOp

end

end Supervisor.Scenario
