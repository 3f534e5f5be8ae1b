/-
The platform under the machine.

A `Platform` is one hart with its registers, its console, its firmware and its clock.  It offers
four interfaces, each of which may be missing; what stands behind a missing interface is still
there, only the machine cannot reach it.

* `Platform.hartId` — the number of the running hart, drawn at the first question;
* `Platform.time` — the firmware clock, which moves on by a step with every reading;
* `Platform.setTimer`, `Platform.sendInterrupt` — the firmware's effects on the hart;
* `Platform.frame`, `Platform.resume`, `Platform.switchTask` — register images;
* `Platform.idle` — a request to sleep, which may end the run;
* `Platform.console` — what the writes to the console amount to.

Design notes: the writes to the console are kept apart, newest first; input waits in the order in
which it was typed.
-/
import Supervisor.Hart.Csr
import Supervisor.Text.Numeral

namespace Supervisor

def hartCount : Nat := 4

/-- The word with all bits set. -/
def maxWord : UInt64 := 0xffffffffffffffff

/-- Which interfaces of a platform the machine can reach. -/
structure Interfaces where
  console : Bool := true
  csrs : Bool := true
  /-- Register images of the hart. -/
  images : Bool := true
  firmware : Bool := true
deriving Repr, DecidableEq, Inhabited

/-- The source of time, in nanoseconds. -/
structure Clock where
  /-- What the next reading sees. -/
  nanoseconds : UInt64 := 5000
  /-- How far each reading moves the clock. -/
  step : UInt64 := 0
deriving Repr, DecidableEq, Inhabited

/-- A hart and what surrounds it. -/
structure Platform where
  /-- Whether this is the platform that a machine takes when it is given none. -/
  standard : Bool := false
  interfaces : Interfaces := {}
  csrs : Csrs := {}
  registers : Registers := Registers.zero
  /-- Where execution went on after the last switch or resumption. -/
  pc : UInt64 := 0
  switches : Nat := 0
  deadline : UInt64 := maxWord
  /-- How often the firmware was asked to shut down or to restart. -/
  shutdowns : Nat := 0
  /-- The writes to the console, newest first. -/
  writes : List Text := []
  /-- What was typed and not read yet. -/
  input : Text := []
  /-- The address of the code that takes traps. -/
  trapEntry : UInt64 := 0x80200000
  clock : Clock := {}
  /-- A hart number that overrides the drawn one. -/
  forcedHart : Option UInt32 := none
  /-- The number drawn by the running hart. -/
  hart : Option UInt32 := none
  /-- The next number to be drawn. -/
  nextHart : UInt32 := 0
  /-- How many requests to sleep the platform grants before one ends the run. -/
  idlePeriod : Option Nat := none
  /-- The number of requests to sleep so far. -/
  idleRequests : Nat := 0
  /-- What was written to the console of the standard platform while another one is in use. -/
  standardConsole : Text := []
deriving Repr, DecidableEq, Inhabited

/-- Why a run ended before its time. -/
inductive Stop where
  /-- The firmware was asked to shut down or to restart. -/
  | halt (reason : UInt32) (reboot : Bool)
  /-- The platform gave up with a message. -/
  | panic (message : Option Text)
  /-- Execution went on in another register image. -/
  | resumed (pc : UInt64)
  /-- The hart went to sleep for good. -/
  | idle
  /-- The hart waits for something that cannot happen. -/
  | waits
  /-- A missing interface was used. -/
  | missing
  /-- A scenario nests deeper than it may. -/
  | tooDeep
deriving Repr, DecidableEq

namespace Platform

/-- The software interrupt of the supervisor in the pending register. -/
def softwarePending : UInt64 := 0x2

/-- The timer interrupt of the supervisor in the pending register. -/
def timerPending : UInt64 := 0x20

/-- The number of the running hart; a hart draws the next free number when it first asks. -/
def hartId (p : Platform) : UInt32 × Platform :=
  match p.forcedHart, p.hart with
  | some id, _ => (id, p)
  | none, some id => (id, p)
  | none, none => (p.nextHart, { p with hart := some p.nextHart, nextHart := p.nextHart + 1 })

/-- Reads the firmware clock, which counts in units of 100 nanoseconds. -/
def time (p : Platform) : UInt64 × Platform :=
  (p.clock.nanoseconds / 100,
    { p with clock.nanoseconds := p.clock.nanoseconds + p.clock.step })

/-- Sets the timer; its pending interrupt goes away. -/
def setTimer (p : Platform) (deadline : UInt64) : Platform :=
  { p with deadline, csrs := p.csrs.clearBits .sip timerPending }

/-- Sends a software interrupt to the harts of a mask, which fails for the empty mask. -/
def sendInterrupt (p : Platform) (mask : UInt64) : Bool × Platform :=
  if mask = 0 then (false, p) else (true, { p with csrs := p.csrs.setBits .sip softwarePending })

/-- The image of the hart as it stands. -/
def frame (p : Platform) : Frame where
  x := p.registers.wired
  sstatus := p.csrs.sstatus
  sepc := p.csrs.sepc
  scause := p.csrs.scause
  stval := p.csrs.stval

/-- The hart with an image loaded into it. -/
def resume (p : Platform) (f : Frame) : Platform :=
  { p with
    registers := f.x.wired
    csrs := (p.csrs.write .sstatus f.sstatus).write .sepc f.sepc
    pc := f.sepc }

/-- Switches between tasks in memory.  The image of the running one is stored before that of the
next one is loaded, for both may have the same place; either may be missing. -/
def switchTask {ι : Type} [DecidableEq ι] (p : Platform) (memory : Tasks ι)
    (current next : Option ι) : Tasks ι × Platform :=
  let stored := memory.store current p.registers.task
  (stored,
    match next with
    | none => { p with switches := p.switches + 1 }
    | some i =>
      { p with
        registers := p.registers.load (stored i)
        pc := (stored i).ra
        switches := p.switches + 1 })

/-- Counts a request to sleep and says whether it ends the run. -/
def idle (p : Platform) : Bool × Platform :=
  let n := p.idleRequests + 1
  match p.idlePeriod with
  | none => (false, p)
  | some period => (n % period == 0, { p with idleRequests := n })

def write (p : Platform) (t : Text) : Platform := { p with writes := t :: p.writes }

/-- What was written to the console. -/
def console (p : Platform) : Text := p.writes.reverse.flatten

@[simp] theorem console_write (p : Platform) (t : Text) :
    (p.write t).console = p.console ++ t := by
  simp [console, write]

/-- The hart as it is after a reset. -/
def reset (p : Platform) : Platform := { p with csrs := {} }

/-- The firmware's specification version, implementation and machine identity. -/
def firmwareInfo : List UInt64 := [0x01000000, 1, 0x10000, 0, 0, 0]

/-- The line that a panic writes, cut to the 255 bytes of its buffer. -/
def panicLine (message file : Option Text) (line : Int) : Text :=
  List.take 255 (List.flatten ["[PANIC] ", message.getD "(null)", " at ", file.getD "?", ":",
    Numeral.signed line, "\n"])

end Platform

end Supervisor
