/-
Register images.

A `Frame` is the whole supervisor-visible state of a hart at a trap: 32 general registers,
the status word, and the three words that say where and why the trap was taken.  A `Task` is
the smaller image that a cooperative switch saves: return address, stack pointer and the
twelve saved registers.

* `Frame.advance` — moves the program counter past an instruction;
* `Frame.ofTask` — the frame with which a task starts in user mode;
* `Registers.task`, `Registers.load` — the image of the running task, and its way back.
-/
import Supervisor.Trap.Cause

namespace Supervisor

/-! ### Bits of the status word -/

namespace Status

/-- Interrupts are enabled. -/
def sie : UInt64 := 0x2

/-- Interrupts were enabled before the trap. -/
def spie : UInt64 := 0x20

/-- The trap came from supervisor mode. -/
def spp : UInt64 := 0x100

/-- The supervisor may touch user memory. -/
def sum : UInt64 := 0x40000

end Status

/-- The general registers of a hart, `x0` to `x31`. -/
abbrev Registers := Vector UInt64 32

namespace Registers

def zero : Registers := Vector.replicate 32 0

/-- The value of register `i`; zero for a register that does not exist. -/
def read (r : Registers) (i : Nat) : UInt64 := r[i]?.getD 0

/-- Stores into register `i`; a register that does not exist takes nothing. -/
def write (r : Registers) (i : Nat) (v : UInt64) : Registers := r.setIfInBounds i v

/-- Stores into register `i` of a hart, where `x0` is wired to zero. -/
def writeWired (r : Registers) (i : Nat) (v : UInt64) : Registers :=
  if i = 0 then r else r.write i v

/-- The same registers with `x0` back at zero. -/
def wired (r : Registers) : Registers := r.write 0 0

@[simp] theorem read_zero (i : Nat) : zero.read i = 0 := by
  by_cases h : i < 32 <;> simp [read, zero, h]

@[simp] theorem read_write_self (r : Registers) {i : Nat} (h : i < 32) (v : UInt64) :
    (r.write i v).read i = v := by
  simp [read, write, h]

theorem read_write_of_ne (r : Registers) {i j : Nat} (h : i ≠ j) (v : UInt64) :
    (r.write i v).read j = r.read j := by
  simp [read, write, h]

end Registers

/-- The state of a hart at a trap. -/
structure Frame where
  x : Registers := Registers.zero
  sstatus : UInt64 := 0
  /-- Where execution goes on. -/
  sepc : UInt64 := 0
  /-- Why the trap was taken. -/
  scause : UInt64 := 0
  /-- The address or instruction that the trap is about. -/
  stval : UInt64 := 0
deriving Repr, DecidableEq, Inhabited

/-- The size of a frame in bytes: 36 words. -/
def frameSize : Nat := 288

namespace Frame

def cause (f : Frame) : Cause := ⟨f.scause⟩

def trapType (f : Frame) : TrapType := f.cause.trapType

/-- Whether user code was running. -/
def fromUserMode (f : Frame) : Bool := f.sstatus &&& Status.spp == 0

/-- The frame that goes on `bytes` further. -/
def advanceBy (f : Frame) (bytes : UInt64) : Frame := { f with sepc := f.sepc + bytes }

/-- The frame that goes on after the trapping instruction. -/
def advance (f : Frame) : Frame := f.advanceBy 4

@[simp] theorem sepc_advanceBy (f : Frame) (bytes : UInt64) :
    (f.advanceBy bytes).sepc = f.sepc + bytes := rfl

@[simp] theorem trapType_advanceBy (f : Frame) (bytes : UInt64) :
    (f.advanceBy bytes).trapType = f.trapType := rfl

/-- The number of the system call that a frame asks for, from register `a7`. -/
def callNumber (f : Frame) : UInt64 := f.x.read 17

/-- The frame with which a task starts in user mode with interrupts enabled; the other status
bits come from `status`. -/
def ofTask (entry userStack status : UInt64) : Frame where
  x := (Registers.zero.write 1 entry).write 2 userStack
  sepc := entry
  sstatus := (status &&& ~~~(Status.spp ||| Status.sie)) ||| Status.spie

end Frame

/-- The state of a task that is switched out. -/
structure Task where
  /-- Where the task goes on. -/
  ra : UInt64 := 0
  /-- Its stack pointer. -/
  sp : UInt64 := 0
  /-- Its saved registers, `s0` to `s11`. -/
  s : Vector UInt64 12 := Vector.replicate 12 0
deriving Repr, DecidableEq, Inhabited

/-- The size of a task image in bytes: 14 words. -/
def taskSize : Nat := 112

/-- Task images in memory, each in its place. -/
abbrev Tasks (ι : Type) := ι → Task

/-- Stores an image in its place, if there is one. -/
def Tasks.store {ι : Type} [DecidableEq ι] (memory : Tasks ι) (place : Option ι) (t : Task) :
    Tasks ι := fun i => if place = some i then t else memory i

/-- The two sides of a switch between two tasks. -/
inductive Side where
  | outgoing
  | incoming
deriving Repr, DecidableEq

/-- The images of both sides; one that is missing counts as fresh. -/
def Side.images (outgoing incoming : Option Task) : Tasks Side
  | .outgoing => outgoing.getD {}
  | .incoming => incoming.getD {}

namespace Registers

/-- The register that holds saved register `i`: `x8` and `x9`, then `x18` onward. -/
def saved (i : Nat) : Nat := if i < 2 then 8 + i else 16 + i

/-- The image of the task that is running on these registers. -/
def task (r : Registers) : Task where
  ra := r.read 1
  sp := r.read 2
  s := Vector.ofFn fun i => r.read (saved i)

/-- The registers with those of a task loaded. -/
def load (r : Registers) (t : Task) : Registers :=
  t.s.toList.zipIdx.foldl (fun r (v, i) => r.write (saved i) v) ((r.write 1 t.ra).write 2 t.sp)

end Registers

end Supervisor
