/-
Trap causes.

The cause word of a trap has its top bit set for an interrupt; the other bits are the code of
the interrupt or exception.  The codes that the machine knows are grouped into the sixteen
trap types; every other code belongs to `TrapType.unknown`.

* `Cause.trapType` — decodes a cause word;
* `TrapType.name`, `interruptName`, `exceptionName` — the names that messages use.
-/

namespace Supervisor

/-- The kinds of trap that handlers are registered for. -/
inductive TrapType where
  | timerInterrupt
  | externalInterrupt
  | softwareInterrupt
  | systemCall
  | instructionPageFault
  | loadPageFault
  | storePageFault
  | instructionFault
  | illegalInstruction
  | breakpoint
  | instructionMisaligned
  | loadMisaligned
  | storeMisaligned
  | loadFault
  | storeFault
  | unknown
deriving Repr, DecidableEq, Inhabited

namespace TrapType

/-- Every trap type, in the order in which they are listed. -/
def all : List TrapType :=
  [timerInterrupt, externalInterrupt, softwareInterrupt, systemCall, instructionPageFault,
    loadPageFault, storePageFault, instructionFault, illegalInstruction, breakpoint,
    instructionMisaligned, loadMisaligned, storeMisaligned, loadFault, storeFault, unknown]

/-- The place of a trap type in that order. -/
def index (t : TrapType) : Fin 16 := Fin.ofNat 16 t.ctorIdx

def name : TrapType → String
  | timerInterrupt => "TimerInterrupt"
  | externalInterrupt => "ExternalInterrupt"
  | softwareInterrupt => "SoftwareInterrupt"
  | systemCall => "SystemCall"
  | instructionPageFault => "InstructionPageFault"
  | loadPageFault => "LoadPageFault"
  | storePageFault => "StorePageFault"
  | instructionFault => "InstructionAccessFault"
  | illegalInstruction => "IllegalInstruction"
  | breakpoint => "Breakpoint"
  | instructionMisaligned => "InstructionMisaligned"
  | loadMisaligned => "LoadMisaligned"
  | storeMisaligned => "StoreMisaligned"
  | loadFault => "LoadAccessFault"
  | storeFault => "StoreAccessFault"
  | unknown => "Unknown"

theorem index_injective {s t : TrapType} (h : s.index = t.index) : s = t := by
  revert h; cases s <;> cases t <;> decide

theorem mem_all (t : TrapType) : t ∈ all := by cases t <;> decide

end TrapType

def interruptType (code : UInt64) : TrapType :=
  if code = 1 then .softwareInterrupt
  else if code = 5 then .timerInterrupt
  else if code = 9 then .externalInterrupt
  else .unknown

def exceptionType (code : UInt64) : TrapType :=
  if code = 0 then .instructionMisaligned
  else if code = 1 then .instructionFault
  else if code = 2 then .illegalInstruction
  else if code = 3 then .breakpoint
  else if code = 4 then .loadMisaligned
  else if code = 5 then .loadFault
  else if code = 6 then .storeMisaligned
  else if code = 7 then .storeFault
  else if code = 8 then .systemCall
  else if code = 12 then .instructionPageFault
  else if code = 13 then .loadPageFault
  else if code = 15 then .storePageFault
  else .unknown

/-- What an interrupt code is called. -/
def interruptName (code : UInt64) : String :=
  if code = 1 then "Supervisor software interrupt"
  else if code = 5 then "Supervisor timer interrupt"
  else if code = 9 then "Supervisor external interrupt"
  else "Reserved interrupt"

/-- What an exception code is called. -/
def exceptionName (code : UInt64) : String :=
  if code = 0 then "Instruction address misaligned"
  else if code = 1 then "Instruction access fault"
  else if code = 2 then "Illegal instruction"
  else if code = 3 then "Breakpoint"
  else if code = 4 then "Load address misaligned"
  else if code = 5 then "Load access fault"
  else if code = 6 then "Store/AMO address misaligned"
  else if code = 7 then "Store/AMO access fault"
  else if code = 8 then "Environment call from U-mode"
  else if code = 9 then "Environment call from S-mode"
  else if code = 12 then "Instruction page fault"
  else if code = 13 then "Load page fault"
  else if code = 15 then "Store/AMO page fault"
  else "Reserved exception"

/-- The bit that tells interrupts from exceptions. -/
def interruptBit : UInt64 := 0x8000000000000000

structure Cause where
  /-- The word as the hart reports it. -/
  bits : UInt64
deriving Repr, DecidableEq

namespace Cause

def ofInterrupt (code : UInt8) : Cause := ⟨interruptBit ||| code.toUInt64⟩

def ofException (code : UInt8) : Cause := ⟨code.toUInt64⟩

def isInterrupt (c : Cause) : Bool := c.bits &&& interruptBit != 0

/-- The code of the interrupt or exception. -/
def code (c : Cause) : UInt64 := c.bits &&& ~~~interruptBit

/-- The trap type that a cause word decodes to. -/
def trapType (c : Cause) : TrapType :=
  if c.isInterrupt then interruptType c.code else exceptionType c.code

/-- What the interrupt or exception is called. -/
def name (c : Cause) : String :=
  if c.isInterrupt then interruptName c.code else exceptionName c.code

end Cause

/-- How a hart finds the code that takes a trap: one entry for all, or one per interrupt. -/
inductive TrapMode where
  | direct
  | vectored
deriving Repr, DecidableEq, Inhabited

namespace TrapMode

/-- The low bits of the vector register. -/
def bits : TrapMode → UInt64
  | direct => 0
  | vectored => 1

def name : TrapMode → String
  | direct => "Direct"
  | vectored => "Vectored"

end TrapMode

end Supervisor
