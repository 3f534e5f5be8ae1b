/-
Listings.

What the machine prints about a frame and about its tables.  A listing reads its table anew for
each line, because the clients learn of every line and may change the table in between.

* `Frame.print` — a register dump;
* `Registry.print`, `ErrorLog.print`, `Trace.print`, `CommandTable.print` — the tables.
-/
import Supervisor.Machine

namespace Supervisor

variable {σ : Type} [Client σ]

/-! ### Frames -/

/-- The names of the general registers. -/
def registerNames : List String :=
  ["zero", "ra", "sp", "gp", "tp", "t0", "t1", "t2", "s0", "s1", "a0", "a1", "a2", "a3", "a4",
    "a5", "a6", "a7", "s2", "s3", "s4", "s5", "s6", "s7", "s8", "s9", "s10", "s11", "t3", "t4",
    "t5", "t6"]

namespace Frame

/-- A bit of the status word as a digit. -/
def statusDigit (f : Frame) (bit : UInt64) : Text := if f.sstatus &&& bit != 0 then "1" else "0"

def registerText (f : Frame) (i : Nat) : Text :=
  List.flatten [(registerNames[i]?).getD "", "(x", Numeral.decimal i, "): ",
    Numeral.pointer (f.x.read i)]

/-- The lines of a register dump about the cause and the special registers. -/
def dumpHead (f : Frame) : List (List Text) :=
  [["Cause: ", f.trapType.name, " (", f.cause.name, " ", Numeral.decimal f.cause.code.toNat, ")\n"],
    ["sepc:    ", Numeral.pointer f.sepc, "  stval: ", Numeral.pointer f.stval, "\n"],
    ["sstatus: ", Numeral.pointer f.sstatus, "  [SPP=",
      if f.sstatus &&& Status.spp != 0 then "S" else "U", " SPIE=", f.statusDigit Status.spie,
      " SIE=", f.statusDigit Status.sie, " SUM=", f.statusDigit Status.sum, "]\n"]]

/-- The line of a register dump about registers `2 k + 1` and `2 k + 2`; the last register
stands alone. -/
def dumpPair (f : Frame) (k : Nat) : List Text :=
  if 2 * k + 2 < 32 then
    ["  ", f.registerText (2 * k + 1), "  ", f.registerText (2 * k + 2), "\n"]
  else ["  ", f.registerText (2 * k + 1), "\n"]

def dump (f : Frame) : List (List Text) := f.dumpHead ++ (List.range 16).map f.dumpPair

def print (f : Frame) (sink : Sink) : Exec σ Unit := f.dump.forM (putLine sink)

end Frame

/-! ### The registry -/

namespace Registry

def entryLine (i : Nat) (e : Entry) : List Text :=
  ["  [", Numeral.decimal i, "] prio=", Numeral.decimal e.terms.priority.toNat, " ",
    match e.terms.protection with
    | .system => "SYS "
    | .user => "USER",
    " ", e.description, " registrar=", Numeral.decimal e.terms.registrar.toNat, " ctx=",
    match e.terms.context with
    | none => "-"
    | some c => Numeral.decimal c.toNat,
    "\n"]

/-- Prints the entries of a trap type from place `i` on, at most `fuel` of them. -/
def printEntries (registry : Part (Machine σ) Registry) (t : TrapType) (sink : Sink) :
    (fuel i : Nat) → Exec σ Unit
  | 0, _ => return
  | fuel + 1, i => do
    match ((← registry.read).entries t)[i]? with
    | none => return
    | some e =>
      putLine sink (entryLine i e)
      printEntries registry t sink fuel (i + 1)

/-- Prints the entries of every trap type that has some. -/
def print (registry : Part (Machine σ) Registry) (sink : Sink) : Exec σ Unit := do
  match sink with
  | .nowhere => return
  | .console =>
    putsUnguarded sink "=== Registered trap handlers ===\n"
    TrapType.all.forM fun t => do
      let n := (← registry.read).count t
      if n ≠ 0 then
        putLine sink [t.name, " (", Numeral.decimal n, "):\n"]
        printEntries registry t sink bucketCapacity 0

end Registry

/-! ### The log of errors -/

/-- The text of an error as it stands in longer lines, cut to the 159 bytes of its buffer. -/
def SystemError.line (e : SystemError) : Text := e.describe.take 159

namespace ErrorLog

def recordLine (i : Nat) (r : LogRecord) : List Text :=
  ["#", Numeral.decimal i, " ", r.error.line, " -> ", r.outcome.name,
    if r.handled then "" else " (not handled)", "\n"]

/-- Prints `count` records from place `i` on, for as long as there are any. -/
def printFrom (log : Part (Machine σ) ErrorLog) (sink : Sink) : (count i : Nat) → Exec σ Unit
  | 0, _ => return
  | count + 1, i => do
    match (← log.read).get? i with
    | none => return
    | some r =>
      putLine sink (recordLine i r)
      printFrom log sink count (i + 1)

/-- Prints the newest `count` records, oldest of them first. -/
def print (log : Part (Machine σ) ErrorLog) (count : Nat) (sink : Sink) : Exec σ Unit := do
  match sink with
  | .nowhere => return
  | .console =>
    let l ← log.read
    let shown := min count l.size
    if shown = 0 then putsUnguarded sink "No error records\n"
    else
      putLine sink ["=== Recent errors (", Numeral.decimal shown, " of ",
        Numeral.decimal l.written, ") ===\n"]
      printFrom log sink shown (l.size - shown)

end ErrorLog

/-! ### The trace -/

namespace Trace

/-- The line of an event, cut to the 159 bytes of its buffer. -/
def eventLine (i : Nat) (e : TraceEvent) : Text :=
  (List.flatten ["[", Numeral.decimal i, "] ", Numeral.decimal e.timestamp.toNat, ": ",
    e.kind.name, " ", Text.upToNul (e.name.take 32), " val=", Numeral.hex e.value.toNat,
    "\n"]).take 159

/-- Prints `count` events from place `i` on, for as long as there are any. -/
def printFrom (trace : Part (Machine σ) Trace) (sink : Sink) : (count i : Nat) → Exec σ Unit
  | 0, _ => return
  | count + 1, i => do
    match (← trace.read).events.get? i with
    | none => return
    | some e =>
      putsUnguarded sink (eventLine i e)
      printFrom trace sink count (i + 1)

/-- Prints every event, oldest first. -/
def print (trace : Part (Machine σ) Trace) (sink : Sink) : Exec σ Unit := do
  match sink with
  | .nowhere => return
  | .console =>
    let n := (← trace.read).events.size
    if n = 0 then putsUnguarded sink "Trace buffer empty\n"
    else
      putsUnguarded sink "\n--- Trap Trace ---\n"
      printFrom trace sink n 0
      putsUnguarded sink "--- End Trace ---\n"

end Trace

/-! ### Commands -/

namespace CommandTable

/-- Prints the commands from place `i` on, at most `fuel` of them. -/
def printFrom (table : Part (Machine σ) CommandTable) (sink : Sink) : (fuel i : Nat) → Exec σ Unit
  | 0, _ => return
  | fuel + 1, i => do
    match (← table.read).commands[i]? with
    | none => return
    | some c =>
      putLine sink ["  ", c.name, " - ", c.help, "\n"]
      printFrom table sink fuel (i + 1)

/-- Prints the commands with their help. -/
def print (table : Part (Machine σ) CommandTable) (sink : Sink) : Exec σ Unit := do
  match sink with
  | .nowhere => return
  | .console =>
    putsUnguarded sink "Available commands:\n"
    printFrom table sink commandCapacity 0

end CommandTable

end Supervisor
