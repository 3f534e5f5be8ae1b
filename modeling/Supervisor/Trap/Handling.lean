/-
Taking traps.

A trap claims a frame slot, keeps its frame there, and is offered to the handlers of its type in
order until one handles it.  The handlers run on the entries as they were when the trap was
taken, without the lock of the registry.  If nobody handles the trap, or the hart holds the lock
of the registry already, the built-in fallback of the trap type goes last.

* `TrapHandler.run` — what one handler does;
* `dispatch` — offers a trap to a list of entries;
* `fallback` — the last resort for each trap type;
* `takeTrap` — a trap from its entry to its end, through `openTrap`, `serveTrap` and `closeTrap`;
* `dispatchSlots` — offers a trap to the entries of a registry as they stand at each step.
-/
import Supervisor.Fault.Handling

namespace Supervisor

variable {σ : Type}

/-- The time between two ticks of the periodic timer. -/
def tickInterval : UInt64 := 10000000

def theFrame : TrapExec σ Frame := getThe Frame

/-- Moves the frame past the trapping instruction. -/
def skipInstruction : TrapExec σ Unit := modifyThe Frame Frame.advance

/-- Takes the software interrupt back. -/
def clearSoftware : Exec σ Unit :=
  modify fun m => { m with
    platform.csrs := m.system.interrupts.clearSoftware m.platform.csrs }

/-- Sets the timer so far ahead that it does not fire. -/
def disarmTimer : Exec σ Unit := Machine.thePlatform.update (·.setTimer maxWord)

/-- Counts a tick and sets the timer for the next one. -/
def tick : Exec σ Unit := do
  modify fun m => { m with ticks := m.ticks + 1 }
  let now ← readClock
  Machine.thePlatform.update (·.setTimer (now + tickInterval))

variable [Client σ]

/-- Writes one line, from within a trap. -/
def say (sink : Sink) (pieces : List Text) : TrapExec σ Unit := onMachine (putLine sink pieces)

def BasicHandler.run (h : BasicHandler) : TrapExec σ Verdict := do
  let f ← theFrame
  let sink ← onMachine System.console
  match h with
  | .timer =>
    if ← onMachine System.hasFirmware then onMachine disarmTimer
    if (← getThe (Machine σ)).system.config.logTraps then say sink ["[TRAP] timer tick\n"]
    return .handled
  | .software =>
    onMachine clearSoftware
    return .handled
  | .external =>
    say sink ["[TRAP] external interrupt at sepc ", Numeral.pointer f.sepc, "\n"]
    return .handled
  | .systemCall =>
    say sink ["[TRAP] system call ", Numeral.decimal f.callNumber.toNat, " from ",
      if f.fromUserMode then "user" else "supervisor", " mode\n"]
    skipInstruction
    return .handled
  | .breakpoint =>
    say sink ["[TRAP] breakpoint at ", Numeral.pointer f.sepc, "\n"]
    skipInstruction
    return .handled
  | .illegalInstruction =>
    say sink ["[TRAP] illegal instruction ", Numeral.hex f.stval.toUInt32.toNat, " at sepc ",
      Numeral.pointer f.sepc, "\n"]
    return .pass
  | .fault =>
    say sink ["[TRAP] ", f.trapType.name, ": addr=", Numeral.pointer f.stval, " sepc=",
      Numeral.pointer f.sepc, "\n"]
    return .pass
  | .unknown =>
    say sink ["[TRAP] unknown ", if f.cause.isInterrupt then "interrupt" else "exception",
      " code ", Numeral.decimal f.cause.code.toNat, " (scause ", Numeral.hex f.scause.toNat, ")\n"]
    return .pass

/-- Prints the frame of a fault that nothing can be done about, and ends the run. -/
def haltOnFault {α : Type} (f : Frame) : Exec σ α := do
  let sink ← System.console
  putLine sink ["\n[FATAL] unrecoverable ", f.trapType.name, "\n"]
  f.print sink
  putLine sink ["[FATAL] system halting due to unrecoverable exception\n"]
  if ← System.hasFirmware then shutDown 1
  panic "unrecoverable exception"

/-- What the first look at an illegal instruction word suggests. -/
def instructionHint (word : UInt32) : Text :=
  if word = 0 then " (null instruction or fetch error)"
  else if word &&& 0x3 ≠ 0x3 then " (compressed or misaligned encoding)"
  else if word &&& 0x7f = 0x73 then " (possible privileged instruction)"
  else ""

def DiagnosticHandler.run (h : DiagnosticHandler) : TrapExec σ Verdict := do
  let f ← theFrame
  let sink ← onMachine System.console
  match h with
  | .fatalFault => onMachine (haltOnFault f)
  | .illegalInstruction =>
    let word := f.stval.toUInt32
    say sink ["[FATAL] illegal instruction word ", Numeral.hex word.toNat,
      instructionHint word, "\n"]
    onMachine (haltOnFault f)
  | .breakpoint =>
    say sink ["[TRAP] breakpoint at ", Numeral.pointer f.sepc, "\n"]
    onMachine (f.print sink)
    skipInstruction
    let after ← theFrame
    say sink ["[TRAP] breakpoint resumed: pc ", Numeral.pointer f.sepc, " -> ",
      Numeral.pointer after.sepc, "\n"]
    return .handled

def TrapHandler.run (h : TrapHandler) : TrapExec σ Verdict :=
  match h with
  | .basic h => h.run
  | .diagnostic h => h.run
  | .periodicTick => do
    onMachine tick
    return .handled
  | .client n => Client.trapHandler n

def reportFailure (description : Text) (t : TrapType) (sink : Sink) (e : TrapError) :
    Exec σ Unit :=
  putLine sink ["[TRAP] handler '", description, "' failed on ", t.name, ": ", e.name, "\n"]

/-- Offers a trap to handlers in order, until one handles it. -/
def dispatch (t : TrapType) (sink : Sink) : List Entry → TrapExec σ Verdict
  | [] => return .failed .noHandler
  | e :: es => do
    match ← e.handler.run with
    | .handled => return .handled
    | .pass => dispatch t sink es
    | .failed error =>
      onMachine (reportFailure e.description t sink error)
      dispatch t sink es

/-- Offers a trap to the handlers of a registry from slot `i` on, `count` of them.  Handlers may
change the registry; each slot is looked at when its turn comes, and once more for the description
of a handler that failed. -/
def dispatchSlots (registry : Part (Machine σ) Registry) (t : TrapType) (sink : Sink) :
    (count i : Nat) → TrapExec σ Verdict
  | 0, _ => return .failed .noHandler
  | count + 1, i => do
    match (((← onMachine registry.read).bucket t).slot i).handler with
    | none => dispatchSlots registry t sink count (i + 1)
    | some h =>
      match ← h.run with
      | .handled => return .handled
      | .pass => dispatchSlots registry t sink count (i + 1)
      | .failed error =>
        let now := ((← onMachine registry.read).bucket t).slot i
        onMachine (reportFailure (now.description.getD "(null)") t sink error)
        dispatchSlots registry t sink count (i + 1)

/-- Offers a trap to a registry, as many times as it has entries for it at the start. -/
def Registry.dispatch (registry : Part (Machine σ) Registry) (t : TrapType) (sink : Sink) :
    TrapExec σ Verdict := do
  dispatchSlots registry t sink ((← onMachine registry.read).count t) 0

/-- The last resort for a trap of a given type. -/
def fallback (t : TrapType) : TrapExec σ Unit := do
  let f ← theFrame
  let sink ← onMachine System.console
  match t with
  | .systemCall =>
    say sink ["[TRAP] unhandled system call ", Numeral.decimal f.callNumber.toNat,
      ", skipping ecall at ", Numeral.pointer f.sepc, "\n"]
    skipInstruction
  | .breakpoint =>
    say sink ["[TRAP] unhandled breakpoint at ", Numeral.pointer f.sepc, ", skipping\n"]
    skipInstruction
  | .instructionPageFault | .loadPageFault | .storePageFault =>
    say sink ["[TRAP] unresolved ", t.name, " at address ", Numeral.pointer f.stval,
      " (sepc ", Numeral.pointer f.sepc, ")\n"]
  | .softwareInterrupt => onMachine clearSoftware
  | .timerInterrupt =>
    if ← onMachine System.hasFirmware then onMachine disarmTimer
    say sink ["[TRAP] unhandled timer interrupt, timer disarmed\n"]
  | _ =>
    say sink ["[TRAP] unhandled ", t.name, " (scause ", Numeral.hex f.scause.toNat, ", sepc ",
      Numeral.pointer f.sepc, ", stval ", Numeral.pointer f.stval, ")\n"]

/-- Claims a frame slot for a hart and stores a frame in it. -/
def enterTrap (core : UInt32) (f : Frame) : Exec σ Unit := do
  let m ← getThe (Machine σ)
  match m.system.nesting.enter m.level core with
  | none => panic "trap nesting overflow"
  | some (slot, level, nesting) =>
    set { m with level, system.nesting := nesting.storeFrame slot f }

/-- Gives back the last frame slot of a hart. -/
def leaveTrap (core : UInt32) : Exec σ Unit := do
  let m ← getThe (Machine σ)
  match m.system.nesting.leave m.level core with
  | none => panic "trap nesting underflow"
  | some (level, nesting) => set { m with level, system.nesting := nesting }

/-- Announces a trap on the console, if the system is set up so. -/
def announceTrap (t : TrapType) (f : Frame) (sink : Sink) : Exec σ Unit := do
  let m ← getThe (Machine σ)
  if m.system.config.logTraps then
    putLine sink ["[TRAP] ", t.name, " sepc=", Numeral.pointer f.sepc, " stval=",
      Numeral.pointer f.stval, " nest=", Numeral.decimal m.level, "\n"]

/-- The entries for a trap type as they stand, none while the hart holds the lock already. -/
def entriesFor (t : TrapType) (sink : Sink) : Exec σ (List Entry) := do
  let found ← System.locked (return some ((← Machine.theRegistry.read).snapshot t bucketCapacity))
    (return none)
  match found with
  | some entries => return entries
  | none =>
    putLine sink ["[TRAP] registry held by this hart, ", t.name, " goes to fallback\n"]
    return []

/-- Begins a trap; gives the hart that takes it and where its output goes. -/
def openTrap (f : Frame) : Exec σ (UInt32 × Sink) := do
  let core ← System.currentHart
  enterTrap core f
  System.note .trapEnter f.trapType.name f.scause
  let sink ← System.console
  announceTrap f.trapType f sink
  return (core, sink)

def closeTrap (core : UInt32) (t : TrapType) (handled : Bool) : Exec σ Unit := do
  System.note .trapExit t.name (if handled then 1 else 0)
  leaveTrap core

/-- Offers a trap that was begun to the handlers of its type, or else to the last resort, and ends
it. -/
def serveTrap (core : UInt32) (t : TrapType) (sink : Sink) : TrapExec σ Unit := do
  let entries ← onMachine (entriesFor t sink)
  let verdict ← dispatch t sink entries
  unless verdict.isHandled do fallback t
  onMachine (closeTrap core t verdict.isHandled)

/-- Takes the trap of the frame.  Its type is the one at the start, whatever the handlers make of
the frame. -/
def takeTrap : TrapExec σ Unit := do
  unless (← getThe (Machine σ)).system.ready do
    onMachine (panic "trap taken before trap system initialization")
  let f ← theFrame
  let (core, sink) ← onMachine (openTrap f)
  serveTrap core f.trapType sink

/-- Takes the trap of a frame that may be missing; gives how that ended and the frame after it. -/
def takeTrapOf (f : Option Frame) : StateM (Machine σ) (Except Stop Unit × Frame) :=
  match f with
  | some f => StateT.run takeTrap.run f
  | none => do
    let r ← ExceptT.run (panic "handle_trap called with a null trap frame")
    return (r, {})

end Supervisor
