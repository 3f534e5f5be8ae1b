/-
Operations on texts, memory and vocabulary.

* `TextOp.perform` — texts, numerals, formats and blocks of memory;
* `NameKind.nameOf` — the name that a value has in a family of names;
* `TermOp.perform` — causes, frames and error codes.

Design notes: buffers stand for the storage of a caller, and are filled with one byte beforehand,
so that an untouched buffer can be told from an empty one.
-/
import Supervisor.Memory
import Supervisor.Scenario.Bench
import Supervisor.Text.Number

namespace Supervisor.Scenario

/-- The sign of an order. -/
def signOf : Ordering → Int
  | .lt => -1
  | .eq => 0
  | .gt => 1

/-- Where the output of an operation goes. -/
def sinkFor (shown : Bool) : Run Sink := if shown then platformConsole else return .nowhere

/-- The answer with a length and the buffer that was written. -/
def written (n : Int) (b : Buffer) : Report := .record [("n", .number n), ("buf", .buffer b)]

/-- The answer of a numeral: its length, or -1 if it was refused, and the buffer. -/
def numeralReport : Option Nat × Buffer → Report
  | (some n, b) => written n b
  | (none, b) => written (-1) b

/-- What the target of a reading holds before. -/
def untouchedWord : UInt64 := 0xa5a5a5a5

def numberReport (found : Bool) (v : UInt64) : Report :=
  .record [("ok", .flag found), ("v", .word v)]

/-- The classes of a byte: one for whitespace, two for a digit. -/
def classOf (c : UInt8) : Nat :=
  (if Text.isSpace c then 1 else 0) + (if Text.isDigit c then 2 else 0)

/-- A block that starts with `t`, of at least `size` bytes, with room for the closing NUL. -/
def blockWith (t : Text) (size : Nat) : Buffer :=
  (Buffer.blank (max size (t.length + 1))).store 0 (t ++ [0])

namespace TextOp

variable [Client Bench]

def perform : TextOp → Run Report
  | copy source size present =>
    let untouched := Buffer.blank size
    let (ok, b) := if present then Buffer.copyFrom untouched source else (false, untouched)
    return .record [("ok", .flag ok), ("buf", .buffer b)]
  | append target source limit =>
    return .record [("same", .flag true),
      ("buf", .buffer ((blockWith target limit).append source limit))]
  | length t => return .count (t.getD []).length
  | order a b => return .number (Text.difference (a.getD []) (b.getD [])).sign
  | equal a b => return .flag (a.getD [] == b)
  | classify t => return .list (t.map fun c => .count (classOf c))
  | number32 t =>
    let (found, v) := Number.read32 t untouchedWord.toUInt32
    return numberReport found v.toUInt64
  | number64 t =>
    let (found, v) := Number.read64 t untouchedWord
    return numberReport found v
  | numeral32 v size base => return numeralReport (Numeral.write (Buffer.blank size) base v.toNat)
  | numeral64 v size base => return numeralReport (Numeral.write (Buffer.blank size) base v.toNat)
  | hexNumeral v size marked =>
    return numeralReport (Numeral.writeHex (Buffer.blank size) v.toNat marked)
  | tokens t delimiter count =>
    return .list ((Token.take delimiter count t).map fun (token, rest) =>
      .list [.text token, .text rest])
  | format f size args present =>
    let b := if present then some (Buffer.blank size) else none
    let (n, b) := Format.writeTo b size f args
    return written n (b.getD [])
  | printFormat f args shown => do
    match ← sinkFor shown with
    | .nowhere => return .count 0
    | .console =>
      let (n, b) := Format.write (Buffer.blank 256) f args
      puts .console b
      return .count n
  | memoryCopy target source count =>
    return .text ((Memory.copy (target ++ source) 0 target.length count).take target.length)
  | memoryFill target c count => return .text (Memory.fill target c count)
  | memoryMove block source target count => return .text (Memory.move block target source count)
  | memoryOrder a b count => return .number (signOf (Memory.compare a b count))
  | memoryFind block c count => return .option .count (Memory.find block c count)
  | difference a b => return .number (Text.difference (a.getD []) (b.getD []))
  | earlyOutput t => return .count (((t.getD []).getLast?.map UInt8.toNat).getD 0)

end TextOp

/-- The name that a value has in a family of names; values beyond the family have the name of
its default. -/
def NameKind.nameOf (v : UInt64) : NameKind → String
  | trapType => (TrapType.all[v.toUInt8.toNat]?.map TrapType.name).getD "Unknown"
  | trapMode => (if v.toUInt8 = 1 then TrapMode.vectored else .direct).name
  | trapError => (TrapError.all[v.toUInt8.toNat]?.map TrapError.name).getD "None"
  | registryStatus => (RegistryStatus.all[v.toUInt8.toNat]?.map RegistryStatus.name).getD "OK"
  | contextStatus => (ContextStatus.all[v.toUInt8.toNat]?.map ContextStatus.name).getD "None"
  | errorLevel => Level.name ⟨v.toUInt8⟩
  | errorSource => Source.name ⟨v.toUInt8⟩
  | errorOutcome => (ErrorOutcome.all[v.toUInt8.toNat]?.map ErrorOutcome.name).getD "Unhandled"
  | poolStatus => (PoolStatus.all[v.toUInt8.toNat]?.map PoolStatus.name).getD "None"
  | apiStatus => (ApiStatus.all[v.toUInt8.toNat]?.map ApiStatus.name).getD "None"
  | eventKind => (EventKind.all[v.toUInt8.toNat]?.map EventKind.name).getD "UNKNOWN"
  | interrupt => interruptName v
  | exception => exceptionName v

def codeReport (c : ErrorCode) : Report :=
  .record [("raw", .word c.raw.toUInt64), ("source", .name c.source.name),
    ("level", .name c.level.name), ("code", .count c.code.toNat), ("fatal", .flag c.isFatal)]

namespace TermOp

variable [Client Bench]

def perform : TermOp → Run Report
  | name kind v => return .name (kind.nameOf v)
  | cause bits =>
    let c : Cause := ⟨bits⟩
    return .record [("interrupt", .flag c.isInterrupt), ("code", .word c.code),
      ("type", .count c.trapType.index.val)]
  | causeFrom interrupt code =>
    return .word (if interrupt then Cause.ofInterrupt code else Cause.ofException code).bits
  | frameInfo f =>
    return .record [("type", .name f.trapType.name), ("user", .flag f.fromUserMode)]
  | errorCode c => return codeReport c
  | errorText e size =>
    let (n, b) := e.write (Buffer.blank size)
    return written n b
  | dump f shown => do
    f.print (← sinkFor shown)
    return .nothing

end TermOp

end Supervisor.Scenario
