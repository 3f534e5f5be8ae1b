/-
The operator console.

The console edits one line at a time, byte by byte, and runs it as a command when the line ends.

* `CommandAction.run` — what a command does; its answer is the status of the command;
* `CommandTable.runLine` — finds the command of a line and runs it;
* `CommandTable.takeByte` — one typed byte.

Design notes: a console may be any part of the machine; the help command always prints the
commands of the machine's own console.
-/
import Supervisor.Api
import Supervisor.Contexts
import Supervisor.Text.Number

namespace Supervisor

variable {σ : Type} [Client σ]

/-- How many errors are listed if nobody says how many. -/
def defaultErrorCount : Nat := 10

/-- Says that the system is not ready, and answers so. -/
def answerNotReady (sink : Sink) : Exec σ Int := do
  putsUnguarded sink "Trap system not initialized\n"
  return -1

/-- Runs a command that needs the system to be ready. -/
def commandWhenReady (sink : Sink) (body : Exec σ Unit) : Exec σ Int := do
  if ← Api.isReady then
    body
    return 0
  else answerNotReady sink

/-- Lists the newest errors, as many as the argument says. -/
def runErrorLog (arguments : Text) (sink : Sink) : Exec σ Int := do
  let token := (Token.next 32 arguments).1
  match if token.isEmpty then some defaultErrorCount.toUInt32 else Number.word32? token with
  | none =>
    putsUnguarded sink "Usage: errlog [count]\n"
    return -1
  | some count => commandWhenReady sink (Api.printErrorLog count.toNat)

/-- Prints the nesting and how full the hart's interrupt stack is. -/
def runNesting (sink : Sink) : Exec σ Int := do
  match ← Api.stackUsage with
  | none => answerNotReady sink
  | some (used, size) =>
    let level ← Api.nestLevel
    putLine sink ["Nest level: ", Numeral.decimal level, " (max ",
      Numeral.decimal (← Machine.theNesting.read).limit, "), interrupt stack ",
      Numeral.decimal used, "/", Numeral.decimal size, " bytes\n"]
    return 0

/-- Goes to the firmware without asking whether it can be reached; fails if it cannot. -/
def requireFirmware : Exec σ Unit := do
  unless ← System.hasFirmware do throw .missing

/-- Prints what the firmware says about itself. -/
def runFirmware (sink : Sink) : Exec σ Int := do
  if ← System.hasFirmware then
    requireFirmware
    match Platform.firmwareInfo with
    | [spec, impl, version, vendor, arch, machine] =>
      putLine sink ["SBI spec ", Numeral.decimal ((spec >>> 24) &&& 0x7f).toNat, ".",
        Numeral.decimal (spec &&& 0xffffff).toNat, ", impl id ", Numeral.decimal impl.toNat,
        " version ", Numeral.hex version.toNat, "\n"]
      let now ← readClock
      putLine sink ["mvendorid ", Numeral.hex vendor.toNat, " marchid ", Numeral.hex arch.toNat,
        " mimpid ", Numeral.hex machine.toNat, " time ", Numeral.decimal now.toNat, " harts ",
        Numeral.decimal hartCount, "\n"]
      return 0
    | _ => return -1
  else
    putsUnguarded sink "Firmware interface unavailable\n"
    return -1

/-- The hart that the arguments of a command name. -/
def hartNamed? (arguments : Text) : Option UInt32 :=
  (Number.word32? (Token.next 32 arguments).1).filter (·.toNat < hartCount)

/-- Sends a software interrupt to the hart that the argument names. -/
def runInterruptHart (arguments : Text) (sink : Sink) : Exec σ Int := do
  if (← getThe (Machine σ)).system.bound then
    match hartNamed? arguments with
    | none =>
      putLine sink ["Usage: ipi <hart 0-", Numeral.decimal (hartCount - 1), ">\n"]
      return -1
    | some hart =>
      requireFirmware
      if ← Machine.thePlatform.change (·.sendInterrupt (1 <<< hart.toUInt64)) then
        putLine sink ["IPI sent to hart ", Numeral.decimal hart.toNat, "\n"]
        return 0
      else
        putLine sink ["IPI to hart ", Numeral.decimal hart.toNat, " failed\n"]
        return -1
  else answerNotReady sink

/-- Restarts the machine. -/
def runReboot (sink : Sink) : Exec σ Int := do
  if (← getThe (Machine σ)).system.bound then
    putsUnguarded sink "Rebooting...\n"
    requireFirmware
    restart 0 true
  else answerNotReady sink

/-- Turns tracing on or off. -/
def runTraceSwitch (on : Bool) (sink : Sink) : Exec σ Int := do
  Machine.theTrace.update fun t => { t with enabled := on }
  putsUnguarded sink (if on then "Tracing enabled\n" else "Tracing disabled\n")
  return 0

/-- What a command does. -/
def CommandAction.run (a : CommandAction) (arguments : Text) (sink : Sink) : Exec σ Int := do
  match a with
  | .help =>
    CommandTable.print Machine.theConsole sink
    return 0
  | .handlers => commandWhenReady sink Api.printHandlers
  | .errorLog => runErrorLog arguments sink
  | .errorClear =>
    commandWhenReady sink do
      Api.clearErrorLog
      putsUnguarded sink "Error log cleared\n"
  | .errorHandlers => commandWhenReady sink Api.printErrorHandlers
  | .panicState =>
    putLine sink ["Panic mode: ", if ← Api.isPanicMode then "LATCHED" else "clear", "\n"]
    return 0
  | .panicReset =>
    match ← Api.resetPanicMode with
    | .ok =>
      putsUnguarded sink "Panic mode cleared\n"
      return 0
    | e =>
      putLine sink ["panic_reset failed: ", e.name, "\n"]
      return -1
  | .nesting => runNesting sink
  | .trace =>
    Trace.print Machine.theTrace sink
    return 0
  | .traceOn => runTraceSwitch true sink
  | .traceOff => runTraceSwitch false sink
  | .traceClear =>
    Machine.theTrace.update Trace.clear
    putsUnguarded sink "Trace buffer cleared\n"
    return 0
  | .firmware => runFirmware sink
  | .interruptHart => runInterruptHart arguments sink
  | .reboot => runReboot sink
  | .ticks =>
    putLine sink ["Timer ticks: ", Numeral.decimal (← getThe (Machine σ)).ticks.toNat, "\n"]
    return 0
  | .contexts =>
    Contexts.print Machine.thePool sink
    return 0
  | .client n => Client.command n arguments sink

namespace CommandTable

/-- Runs an input line; gives the status of its command, or -1 if there is none. -/
def runLine (table : Part (Machine σ) CommandTable) (line : Text) (sink : Sink) : Exec σ Int := do
  if sink = .nowhere then return -1
  let l := CommandLine.split line
  if l.name.isEmpty then return -1
  match (← table.read).find? l.name with
  | none =>
    putLine sink ["Unknown command: ", Text.upToNul l.text, "\n"]
    return -1
  | some c => c.action.run l.arguments sink

/-- Ends the edited line: runs it unless it is empty, and asks for another. -/
def endLine (table : Part (Machine σ) CommandTable) (sink : Sink) : Exec σ Unit := do
  putsUnguarded sink "\n"
  let line := (← table.read).line
  unless line.isEmpty do
    let _ ← runLine table line sink
  table.update fun t => { t with line := [] }
  putsUnguarded sink "> "

/-- Takes one typed byte: a line end runs the line, a backspace or delete takes its last byte
back, and anything else is added and shown if the line has room. -/
def takeByte (table : Part (Machine σ) CommandTable) (c : UInt8) (sink : Sink) :
    Exec σ Unit := do
  if sink = .nowhere then return
  let line := (← table.read).line
  if c = 13 || c = 10 then endLine table sink
  else if c = 8 || c = 127 then
    unless line.isEmpty do
      table.update fun t => { t with line := line.dropLast }
      putsUnguarded sink "\x08 \x08"
  else if line.length < lineCapacity then
    table.update fun t => { t with line := line ++ [c] }
    putByteUnguarded sink c

end CommandTable

end Supervisor
