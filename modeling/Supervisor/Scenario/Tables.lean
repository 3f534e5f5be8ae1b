/-
Operations on tables.

* `RegistryOp.perform` — the spare registry;
* `TraceOp.perform` — a trace;
* `LogOp.perform` — the spare log of errors;
* `ErrorOp.perform` — error handlers with their log;
* `PoolOp.perform` — the spare pool of contexts.

Design notes: handles from the pool are kept in the order in which they were given out, and an
operation names one by its place; a place beyond the list has the empty handle.
-/
import Supervisor.Scenario.Wording
import Supervisor.Trap.Handling
import Supervisor.Contexts

namespace Supervisor.Scenario

def entryReport (e : Entry) : Report :=
  .record [("desc", .text e.description), ("prio", .count e.terms.priority.toNat),
    ("user", .flag (e.terms.protection == .user)), ("registrar", .word e.terms.registrar),
    ("ctx", .option .word e.terms.context)]

def permissionCode : Permission → Nat
  | .granted => 0
  | .protectedEntry => 1
  | .foreignEntry => 2

def verdictCode : Verdict → Nat
  | .handled => 0
  | .pass => 1
  | .failed _ => 2

/-- Why a verdict is a failure, if it is one. -/
def verdictError : Verdict → TrapError
  | .failed e => e
  | _ => .none

/-- Runs an action of a trap on a frame; gives the frame after it. -/
def onFrame {α : Type} (f : Frame) (x : TrapExec Bench α) : Run (α × Frame) :=
  ExceptT.mk do
    let (r, f') ← StateT.run x.run f
    return r.map fun a => (a, f')

namespace RegistryOp

variable [Client Bench]

def perform : RegistryOp → Run Report
  | add t p => return .name (← Bench.theRegistry.change (·.add t p)).name
  | remove t description registrar =>
    return .name (← Bench.theRegistry.change (·.remove t description registrar)).name
  | removeBound context registrar =>
    return .count (← Bench.theRegistry.change (·.removeBound context registrar))
  | purge context => return .count (← Bench.theRegistry.change (·.purge context))
  | countBound context => return .count ((← Bench.theRegistry.read).countBound context)
  | count t => return .count ((← Bench.theRegistry.read).count t)
  | total => return .count (← Bench.theRegistry.read).total
  | list t => return .list (((← Bench.theRegistry.read).entries t).map entryReport)
  | snapshot t limit =>
    return .list (((← Bench.theRegistry.read).snapshot t limit).map fun e => .text e.description)
  | dispatch t f shown => do
    let sink ← sinkFor shown
    let (verdict, f') ← onFrame f (Registry.dispatch Bench.theRegistry t sink)
    return .record [("kind", .count (verdictCode verdict)),
      ("error", .name (verdictError verdict).name), ("ctx", .frame f')]
  | permission terms registrar => return .count (permissionCode (terms.permission registrar))
  | print shown => do
    let sink ← sinkFor shown
    Registry.print Bench.theRegistry sink
    return .nothing
  | clear => do
    Bench.theRegistry.update Registry.clear
    return .nothing

end RegistryOp

def eventReport (e : TraceEvent) : Report :=
  .record [("time", .word e.timestamp), ("type", .number e.kind.number), ("name", .text e.name),
    ("value", .word e.value)]

/-- Records events with values from `v` on; the answer is whether the last one was taken, and that
nothing was refused if there is none. -/
def recordEvents (trace : Part World Trace) (kind : EventKind) (name : Text) :
    (count : Nat) → (v : UInt64) → Run Bool
  | 0, _ => return true
  | 1, v => traceEvent trace kind name v
  | count + 1, v => do
    let _ ← traceEvent trace kind name v
    recordEvents trace kind name count (v + 1)

namespace TraceOp

variable [Client Bench]

def perform (trace : Part World Trace) : TraceOp → Run Report
  | start clocked => do
    trace.update (·.start clocked)
    return .nothing
  | enable on => do
    trace.update fun t => { t with enabled := on }
    return .flag on
  | record kind name v count => return .flag (← recordEvents trace kind name count v)
  | print shown => do
    Trace.print trace (← sinkFor shown)
    return .nothing
  | clear => do
    trace.update Trace.clear
    return .nothing
  | size => return .count (← trace.read).events.size
  | event i => return .option eventReport ((← trace.read).events.get? i)

end TraceOp

def recordReport (r : LogRecord) : Report :=
  .record [("error", .error r.error), ("handled", .flag r.handled), ("result", .name r.outcome.name)]

/-- The answer about a log: its size, and how many errors there have been. -/
def logReport (l : ErrorLog) : Report := .list [.count l.size, .word l.written.toUInt64]

/-- An error with its code moved on. -/
def shiftCode (e : SystemError) (n : Nat) : SystemError :=
  { e with code := ⟨e.code.raw + n.toUInt32⟩ }

namespace LogOp

variable [Client Bench]

def perform : LogOp → Run Report
  | add r count =>
    Bench.theLog.change fun l =>
      let l' := (List.range count).foldl (fun l i => l.push { r with error := shiftCode r.error i }) l
      (logReport l', l')
  | entry i => return .option recordReport ((← Bench.theLog.read).get? i)
  | print count shown => do
    ErrorLog.print Bench.theLog count (← sinkFor shown)
    return .nothing
  | clear => Bench.theLog.change fun _ => (logReport {}, {})

end LogOp

/-- The spare error handlers with the spare trace. -/
def spareSite : ErrorSite Bench where
  table := Bench.theErrors
  trace := Bench.theTrace

namespace ErrorOp

variable [Client Bench]

def perform (site : ErrorSite Bench) : ErrorOp → Run Report
  | attach platform traced => do
    site.table.update fun t => { t with attached := platform, traced }
    return .nothing
  | add p => return .name (← site.register p).name
  | remove description => return .name (← site.unregister description).name
  | handle e => return .name (← site.handle e).name
  | create c address instruction =>
    return .error (← site.create c.source c.level c.code address instruction)
  | state => do
    let t ← site.table.read
    let handlers ← site.handlerCount
    let logged ← site.logged
    return .record [("panic", .flag t.panicMode), ("handlers", .count handlers),
      ("total", .word t.log.written.toUInt64), ("logged", .count logged)]
  | reset => do
    site.reset
    return .nothing
  | printLog count => do
    site.printLog count
    return .nothing
  | clearLog => do
    site.clearLog
    return .nothing
  | print => do
    site.print
    return .nothing
  | entry i => return .option recordReport (← site.logEntry i)

end ErrorOp

/-- The handle that an operation works with. -/
def HandleChoice.pick (h : HandleChoice) (handles : Array Handle) : Handle :=
  let found := handles.getD h.index {}
  { id := h.id.getD found.id
    token := found.token ^^^ h.tokenMask
    version := found.version + h.versionShift }

/-- Makes `count` contexts; gives the status of the last and the handle of the last that worked. -/
def createContexts (name : Text) : (count : Nat) → PoolStatus → Handle → Run (PoolStatus × Handle)
  | 0, status, h => return (status, h)
  | count + 1, _, h => do
    match ← Contexts.create Bench.thePool name with
    | .ok h' =>
      Machine.theClients.update fun b => { b with handles := b.handles.push h' }
      createContexts name count .ok h'
    | .error e => createContexts name count e h

/-- The status of an operation on a pool. -/
def poolStatus {α : Type} : Except PoolStatus α → PoolStatus
  | .ok _ => .ok
  | .error e => e

/-- What a place for a count holds that nobody has written to. -/
def untouchedCount : Nat := 99

/-- What a place for a state holds that nobody has written to. -/
def untouchedState : UInt8 := 238

namespace PoolOp

variable [Client Bench]

/-- The handle that an operation works with. -/
def handle (h : HandleChoice) : Run Handle := do return h.pick (← Machine.theClients.read).handles

def perform : PoolOp → Run Report
  | create name n => do
    let (status, h) ← createContexts name n .ok {}
    return .record [("status", .name status.name), ("id", .word h.id),
      ("token", .word h.token.toUInt64), ("version", .count h.version.toNat)]
  | validate h => return .name (← Contexts.validate Bench.thePool (← handle h)).name
  | destroy h counted => do
    let r ← Contexts.destroy Bench.thePool (← handle h)
    return .record [("status", .name (poolStatus r).name),
      ("removed", .count (if counted then r.toOption.getD 0 else untouchedCount))]
  | getState h => do
    let r ← Contexts.access Bench.thePool (← handle h) fun record => (record.userState, record)
    return .record [("status", .name (poolStatus r).name),
      ("v", .count (r.toOption.getD untouchedState).toNat)]
  | setState h v => do
    let r ← Contexts.access Bench.thePool (← handle h) fun record =>
      ((), { record with userState := v })
    return .name (poolStatus r).name
  | getName h size => do
    let r ← Contexts.access Bench.thePool (← handle h) fun record => (record.name, record)
    let b : Buffer := (Buffer.blank size).set 0 0
    return .record [("status", .name (poolStatus r).name),
      ("name", .buffer (match r with
        | .ok name => (Buffer.copyFrom b (some name)).2
        | .error _ => b))]
  | count => return .count (← Contexts.activeCount Bench.thePool)
  | print shown => do
    Contexts.print Bench.thePool (← sinkFor shown)
    return .nothing

end PoolOp

end Supervisor.Scenario
