/-
System errors.

A system error is raised by software.  Its code is a word of 32 bits: the source in the top
byte, the level in the next, and sixteen bits that the source gives a meaning to.  The lower
the level, the more serious the error; level zero is fatal.

* `ErrorCode.make` and the three fields of a code;
* `SystemError.describe` — the full text of an error;
* `SystemError.writeWithin`, `SystemError.write` — that text in the first bytes of a block, or in a
  buffer, cut to what fits.
-/
import Supervisor.Text.Format

namespace Supervisor

/-- How serious an error is, as the byte in its code. -/
structure Level where
  byte : UInt8
deriving Repr, DecidableEq

namespace Level

/-- The level of errors that the system cannot go on after. -/
def fatal : Level := ⟨0⟩

/-- The level of a plain error. -/
def error : Level := ⟨2⟩

def name (l : Level) : String :=
  (["FATAL", "CRITICAL", "ERROR", "WARNING", "INFO"][l.byte.toNat]?).getD "UNKNOWN"

end Level

/-- Where an error comes from, as the byte in its code. -/
structure Source where
  byte : UInt8
deriving Repr, DecidableEq

namespace Source

def memory : Source := ⟨1⟩

def interrupt : Source := ⟨2⟩

def process : Source := ⟨3⟩

def syscall : Source := ⟨7⟩

def name (s : Source) : String :=
  (["Unknown", "Memory", "Interrupt", "Process", "FileSystem", "Network", "Device", "Syscall",
    "Hardware", "Kernel", "Scheduler"][s.byte.toNat]?).getD "Unknown"

end Source

structure ErrorCode where
  raw : UInt32
deriving Repr, DecidableEq

namespace ErrorCode

/-- The code with the given fields. -/
def make (source : Source) (level : Level) (code : UInt16) : ErrorCode :=
  ⟨source.byte.toUInt32 <<< 24 ||| level.byte.toUInt32 <<< 16 ||| code.toUInt32⟩

/-- Where the error comes from. -/
def source (c : ErrorCode) : Source := ⟨(c.raw >>> 24).toUInt8⟩

/-- How serious it is. -/
def level (c : ErrorCode) : Level := ⟨(c.raw >>> 16).toUInt8⟩

/-- What the source says about it. -/
def code (c : ErrorCode) : UInt16 := c.raw.toUInt16

/-- Whether the system cannot go on after it. -/
def isFatal (c : ErrorCode) : Bool := c.level == Level.fatal

end ErrorCode

/-- An error as it is reported. -/
structure SystemError where
  code : ErrorCode
  /-- The address that the error is about. -/
  address : Option UInt64 := none
  /-- Where it was raised. -/
  instruction : UInt64 := 0
  /-- When it was raised. -/
  timestamp : UInt64 := 0
deriving Repr, DecidableEq

namespace SystemError

/-- Where the error comes from. -/
def source (e : SystemError) : Source := e.code.source

/-- How serious it is. -/
def level (e : SystemError) : Level := e.code.level

/-- Whether the system cannot go on after it. -/
def isFatal (e : SystemError) : Bool := e.code.isFatal

def headline (e : SystemError) : Text :=
  List.flatten ["[", e.level.name, "] ", e.source.name, " error ",
    Numeral.hex e.code.code.toNat, " at ", Numeral.pointer e.instruction]

/-- The text that names the address of an error. -/
def addressNote (a : UInt64) : Text := List.flatten [" (addr: ", Numeral.pointer a, ")"]

/-- The full text of an error. -/
def describe (e : SystemError) : Text :=
  e.headline ++ (e.address.map addressNote).getD []

/-- The buffer in which the note on an address is made. -/
def noteBuffer : Buffer := Buffer.blank 40

/-- Writes the text of an error into the first `size` bytes of a block, cut to what fits, and gives
its length: the headline is printed first, and the note on the address, made in a buffer of its own,
is appended to what it left. -/
def writeWithin (e : SystemError) (b : Buffer) (size : Nat) : Nat × Buffer :=
  let (n, b') := Format.writeWithin b size (some "[%s] %s error %x at %p")
    [.string (some e.level.name), .string (some e.source.name),
      .word e.code.code.toUInt64, .word e.instruction]
  match e.address with
  | none => (n, b')
  | some a =>
    if size = 0 then (n, b')
    else
      let (_, note) := Format.write noteBuffer (some " (addr: %p)") [.word a]
      let b'' := b'.append (some (Text.upToNul note)) size
      ((Text.upToNul b'').length, b'')

/-- Writes the text of an error into a buffer. -/
def write (e : SystemError) (b : Buffer) : Nat × Buffer := e.writeWithin b b.length

end SystemError

/-- What became of an error at a handler, or in the end. -/
inductive ErrorOutcome where
  | handled
  | partially
  | unhandled
  | ignored
deriving Repr, DecidableEq, Inhabited

namespace ErrorOutcome

def all : List ErrorOutcome := [handled, partially, unhandled, ignored]

def name : ErrorOutcome → String
  | handled => "Handled"
  | partially => "Partial"
  | unhandled => "Unhandled"
  | ignored => "Ignored"

end ErrorOutcome

end Supervisor
