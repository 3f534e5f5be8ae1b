/-
Operations on the hart and on what stands next to it.

* `PlatformOp.perform` — registers, firmware, clock, console and hart numbers;
* `LockOp.perform` — the spare lock;
* `InterruptOp.perform` — an interrupt control;
* `NestingOp.perform` — frame slots, and the frame of the running handler.

Design notes: a new thread is a hart that has not drawn a number yet.  Threads run one after the
other, so whatever a thread waits for must have happened before it starts.
-/
import Supervisor.Boot
import Supervisor.Scenario.Wording
import Supervisor.Trap.Guard

namespace Supervisor.Scenario

/-- Runs an action as a new thread, and comes back to the thread that was running. -/
def onNewThread {α : Type} (x : Run α) : Run α := do
  let m ← getThe World
  Machine.thePlatform.update fun p => { p with hart := none }
  x.finally fun after => { after with platform.hart := m.platform.hart }

/-- The sides of a switch that are given: the task that is running, where its image is asked for,
and the next one. -/
def sides (asked : Bool) (next : Option Task) : Option Side × Option Side :=
  (if asked then some .outgoing else none, next.map fun _ => .incoming)

/-- Changes a register, if it is one, and answers with its value from before. -/
def changeCsr (r : Option Csr) (f : Csrs → Csr → Csrs) : Run UInt64 :=
  match r with
  | none => return 0
  | some r =>
    Machine.thePlatform.change fun p => (p.csrs.read r, { p with csrs := f p.csrs r })

/-- Two questions of each new thread for its hart number. -/
def threadHarts : (count : Nat) → Run (List Report)
  | 0 => return []
  | count + 1 => do
    let pair ← onNewThread do
      let first ← hartId
      let second ← hartId
      return .list [.count first.toNat, .count second.toNat]
    return pair :: (← threadHarts count)

namespace PlatformOp

variable [Client Bench]

def perform : PlatformOp → Run Report
  | clock c => do
    Machine.thePlatform.update fun p => { p with clock := c }
    return .nothing
  | hart id => do
    Machine.thePlatform.update fun p => if p.standard then p else { p with forcedHart := id }
    return .nothing
  | csrRead r => return .word (← changeCsr r fun csrs _ => csrs)
  | csrWrite r v => do
    let _ ← changeCsr r (·.write · v)
    return .nothing
  | csrSet r v => return .word (← changeCsr r (·.setBits · v))
  | csrClear r v => return .word (← changeCsr r (·.clearBits · v))
  | csrReset => do
    Machine.thePlatform.update Platform.reset
    return .nothing
  | register i => return .word ((← Machine.thePlatform.read).registers.read i)
  | setRegister i v => do
    Machine.thePlatform.update fun p => { p with registers := p.registers.writeWired i v }
    return .nothing
  | programCounter => do
    let p ← Machine.thePlatform.read
    return .record [("pc", .word p.pc), ("switches", .count p.switches)]
  | image => return .frame (← Machine.thePlatform.read).frame
  | resume f => do
    Machine.thePlatform.update (·.resume f)
    throw (.resumed f.sepc)
  | switchTask current next => do
    let (outgoing, incoming) := sides current next
    let images ← Machine.thePlatform.change
      (·.switchTask (Side.images none next) outgoing incoming)
    return .task (images .outgoing)
  | time => return .word (← readClock)
  | setTimer v => do
    Machine.thePlatform.update (·.setTimer v)
    return .nothing
  | deadline => return .word (← Machine.thePlatform.read).deadline
  | sendInterrupt mask => return .flag (← Machine.thePlatform.change (·.sendInterrupt mask))
  | shutDown reason => Supervisor.shutDown reason
  | restart type reason => Supervisor.restart reason (type != 0)
  | shutdowns => return .count (← Machine.thePlatform.read).shutdowns
  | firmwareWrite t => do
    firmwarePuts t
    return .nothing
  | firmwareRead | readIn => return .option (fun c => .text [c]) (← readByte)
  | firmwareInfo => return .list (Platform.firmwareInfo.map .word)
  | typeIn t => do
    Machine.thePlatform.update fun p => { p with input := p.input ++ t }
    return .nothing
  | write t => do
    firmwarePuts (t.getD [])
    return .count (← Machine.thePlatform.read).console.length
  | writeByte c => do
    firmwarePuts [c]
    return .nothing
  | echo t => do
    firmwarePuts (t.getD [])
    return .text (t.getD [])
  | bringUp => do
    bringUpPlatform
    return .nothing
  | trapEntry v => do
    Machine.thePlatform.update fun p => { p with trapEntry := v }
    return .word v
  | info => do
    let core ← hartId
    return .record [("core", .count core.toNat), ("cores", .count hartCount),
      ("entry", .word (← Machine.thePlatform.read).trapEntry)]
  | panic message file line => panicAt message file line
  | sleep => do
    Supervisor.sleep
    return .nothing
  | threadHarts count => return .list (← Scenario.threadHarts count)

end PlatformOp

/-- Takes the spare lock for `core`; the answer is whether that worked. -/
def acquireLock (core : UInt32) : Run Bool := do
  match (← Bench.theLock.read).acquire core with
  | .granted l =>
    Bench.theLock.update fun _ => l
    return true
  | .refused => return false
  | .waits => throw .waits

/-- Attempts once to take the spare lock for `core`. -/
def tryLock (core : UInt32) : Run Bool :=
  Bench.theLock.change fun l =>
    match l.tryAcquire core with
    | some l' => (true, l')
    | none => (false, l)

/-- Carries out the steps of a routine. -/
def runBody (run : Runner) (body : RoutineId) : Run Unit := do run (← Bench.stepsOf body)

namespace LockOp

def perform (run : Runner) : LockOp → Run Report
  | tryAcquire core => return .flag (← tryLock core)
  | acquire core => return .flag (← acquireLock core)
  | held core => return .flag ((← Bench.theLock.read).isHeldBy core)
  | release => do
    Bench.theLock.update Spinlock.release
    return .nothing
  | holding core body => do
    if ← acquireLock core then
      (runBody run body).finally fun m => Bench.theLock.set (Bench.theLock.get m).release m
      return .flag true
    else
      runBody run body
      return .flag false
  | contend mine core => do
    let first ← tryLock mine
    let busy := (← Bench.theLock.read).isHeldBy core
    if first then Bench.theLock.update Spinlock.release
    let second ← if busy then pure false else acquireLock core
    return .list [.flag first, .flag second]

end LockOp

namespace InterruptOp

def control {α : Type} (part : Part World InterruptControl)
    (f : InterruptControl → Csrs → α × Csrs) : Run α :=
  modifyGet fun m =>
    let (a, csrs) := f (part.get m) m.platform.csrs
    (a, { m with platform.csrs := csrs })

/-- Changes the registers of the hart and answers nothing. -/
def controlOnly (part : Part World InterruptControl) (f : InterruptControl → Csrs → Csrs) :
    Run Report :=
  control part fun h r => (.nothing, f h r)

def inspect {α : Type} (part : Part World InterruptControl) (f : InterruptControl → Csrs → α) :
    Run α :=
  control part fun h r => (f h r, r)

def perform (part : Part World InterruptControl) : InterruptOp → Run Report
  | attach csrs entry => do
    part.update fun _ => ⟨csrs, entry⟩
    return .flag csrs
  | setVector mode =>
    control part fun h r =>
      let r' := h.setVector mode r
      (.word (h.vector r'), r')
  | vector => return .word (← inspect part (·.vector))
  | enable => return .flag (← control part (·.enable))
  | disable => return .flag (← control part (·.disable))
  | restore wasEnabled => controlOnly part (·.restore wasEnabled)
  | enabled => return .flag (← inspect part (·.enabled))
  | enableLine i => controlOnly part (·.enableLine i)
  | disableLine i => controlOnly part (·.disableLine i)
  | line i => do
    let enabled ← inspect part (·.lineEnabled i)
    let pending ← inspect part (·.linePending i)
    return .record [("enabled", .flag enabled), ("pending", .flag pending), ("mask", .word i.mask)]
  | raiseSoftware => controlOnly part (·.raiseSoftware)
  | clearSoftware => controlOnly part (·.clearSoftware)
  | lastTrap => do
    let (cause, value) ← inspect part (·.lastTrap)
    return .record [("cause", .word cause), ("value", .word value)]

end InterruptOp

/-- The frame slots that an operation works on. -/
def NestingChoice.part : NestingChoice → Part World Nesting
  | own => Machine.theNesting
  | spare second => if second then Bench.theSecondNesting else Bench.theNesting

/-- The frame with a value stored in a field. -/
def FrameField.store (v : UInt64) (f : Frame) : FrameField → Frame
  | sepc => { f with sepc := v }
  | stval => { f with stval := v }
  | sstatus => { f with sstatus := v }
  | scause => { f with scause := v }
  | register i => { f with x := f.x.write i v }

/-- The answer about a frame slot that was asked for. -/
def slotReport (status : ContextStatus) (slot : Option Slot) : Report :=
  .record [("status", .name status.name), ("slot", .flag slot.isSome)]

/-- The name of an outcome that comes with a value or with what went wrong. -/
def statusOf {α : Type} : Except ContextStatus α → ContextStatus
  | .ok _ => .ok
  | .error e => e

/-- Gives up on the console of the standard platform. -/
def panicOnStandard (message : Text) : Run Report := do
  Machine.thePlatform.update fun p =>
    let line := Platform.panicLine (some message) none 0
    if p.standard then p.write line
    else { p with standardConsole := p.standardConsole ++ line }
  throw (.panic (some message))

namespace NestingOp

def perform (run : Runner) (part : Part World Nesting) : NestingOp → Run Report
  | attach images => do
    part.update fun n => { n with attached := images }
    return .nothing
  | enter core sepc => do
    let (status, slot) ← claimSlot part core
    if let some slot := slot then
      part.update fun n => n.storeFrame slot { n.slotFrame slot with sepc }
    return slotReport status slot
  | leave core => return .name (← giveBackSlot part core).name
  | level => do
    let m ← getThe World
    return .record [("level", .count m.level), ("in", .flag (m.level > 0)),
      ("max", .count (part.get m).limit)]
  | setLimit limit =>
    part.change fun n =>
      let n' := n.setLimit limit.toNat
      (.count n'.limit, n')
  | usage core =>
    return .list [.count ((← part.read).usedBytes core), .count interruptStackSize]
  | frame n core => return .option .frame ((← part.read).frame? n core)
  | guarded core body =>
    Supervisor.guarded part core fun status slot => do
      runBody run body
      return slotReport status slot
  | image => do
    let attached := (← part.read).attached
    let f := (← Machine.thePlatform.read).frame
    return .record [("ok", .flag attached), ("ctx", .frame (if attached then f else {}))]
  | resume f => do
    if (← part.read).attached then
      Machine.thePlatform.update (·.resume f)
      throw (.resumed f.sepc)
    else panicOnStandard "restore_full_context without a CPU backend"
  | switchTask current next => do
    let (outgoing, incoming) := sides current next
    let r ← switchImages (← part.read).attached (Side.images none next) outgoing incoming
    return .record [("status", .name (statusOf r).name),
      ("cur", .task (r.toOption.getD (Side.images none next) .outgoing))]
  | prepare entry userStack status => return .frame (Frame.ofTask entry userStack status)
  | sizes => return .list [.count frameSize, .count taskSize, .count slotCount]
  | setField field v => do
    let _ ← Bench.changeFrame fun f => field.store v f
    return .nothing
  | advance bytes =>
    return .option (fun f => .word f.sepc) (← Bench.changeFrame (·.advanceBy bytes))

end NestingOp

end Supervisor.Scenario
