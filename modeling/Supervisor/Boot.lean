/-
Booting the kernel.

The kernel greets the operator, starts the trap system, sets a periodic timer, and then serves
the console.

* `boot` — everything up to the first prompt;
* `serveConsole` — takes typed bytes from the firmware console;
* `kernel` — both, one after the other; it never returns.

Design notes: a kernel that finds nothing typed polls for ever, so serving ends as waiting once
the given number of polls found nothing more to do.
-/
import Supervisor.Command.Console

namespace Supervisor

variable {σ : Type} [Client σ]

/-- Writes to the console past its interface, as the firmware does. -/
def firmwarePuts (t : Text) : Exec σ Unit := Machine.thePlatform.update (·.write t)

/-- Brings the platform up: resets the registers of the hart. -/
def bringUpPlatform : Exec σ Unit :=
  Machine.thePlatform.update fun p => p.reset.write "[HAL] host simulation platform ready\n"

/-- Sets the timer one interval ahead. -/
def armTimer : Exec σ Unit := do
  let now ← readClock
  Machine.thePlatform.update (·.setTimer (now + tickInterval))

/-- Brings the kernel up to its first prompt. -/
def boot (hart : UInt64) : Exec σ Unit := do
  firmwarePuts "[trapcore] S-mode entry\n"
  bringUpPlatform
  let sink ← platformConsole
  putLine sink ["\n[trapcore] Booting on hart ", Numeral.decimal hart.toNat, "\n"]
  let started ← Api.start .direct
  if started ≠ .ok then panic started.name
  let diagnosed ← Api.installDiagnostics
  if diagnosed ≠ .ok then putLine sink ["[ERROR] Diagnostic handlers: ", diagnosed.name, "\n"]
  let ticking ← Api.register .timerInterrupt (some .periodicTick) 50 (some "Periodic Tick") none
  if ticking ≠ .ok then panic "Periodic tick registration failed"
  let _ ← Machine.theConsole.change
    (·.add (some "ticks") (some .ticks) (some "Show timer tick count"))
  let _ ← Machine.theConsole.change
    (·.add (some "contexts") (some .contexts) (some "Show the context pool"))
  match ← Contexts.create Machine.thePool "console" with
  | .ok _ => pure ()
  | .error e => putLine sink ["[ERROR] Console context: ", e.name, "\n"]
  armTimer
  [Interrupt.timer, Interrupt.software, Interrupt.external].forM fun i => do
    let status ← Api.enableInterrupt i
    if status ≠ .ok then
      putLine sink ["[ERROR] Enable interrupt ", Numeral.decimal i.code.toNat, ": ", status.name,
        "\n"]
  let _ ← Api.enableInterrupts
  puts sink "[trapcore] Console ready, type 'help'\n> "

/-- Takes the next typed byte, if there is one. -/
def readByte : Exec σ (Option UInt8) :=
  Machine.thePlatform.change fun p =>
    match p.input with
    | [] => (none, p)
    | c :: input => (some c, { p with input })

/-- Serves the console for a number of polls. -/
def serveConsole {α : Type} : (polls : Nat) → Exec σ α
  | 0 => throw .waits
  | polls + 1 => do
    if let some c ← readByte then
      CommandTable.takeByte Machine.theConsole c (← platformConsole)
    serveConsole polls

/-- Boots the kernel and serves the console for a number of polls. -/
def kernel {α : Type} (hart : UInt64) (polls : Nat) : Exec σ α := do
  boot hart
  serveConsole polls

end Supervisor
