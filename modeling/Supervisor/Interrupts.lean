/-
Interrupt control.

The only code that touches the interrupt bits of the status word, the enable and pending
registers, and the trap vector.  Each operation is one access to one register.  A control that
is not attached to a hart does nothing and answers no.
-/
import Supervisor.Hart.Csr

namespace Supervisor

/-- An interrupt, by the place of its bit in the enable and pending registers. -/
structure Interrupt where
  code : UInt8
deriving Repr, DecidableEq

namespace Interrupt

def software : Interrupt := ⟨1⟩

def timer : Interrupt := ⟨5⟩

def external : Interrupt := ⟨9⟩

def mask (i : Interrupt) : UInt64 := 1 <<< i.code.toUInt64

end Interrupt

/-- A control over the interrupts of a hart. -/
structure InterruptControl where
  /-- Whether there is a hart to control. -/
  attached : Bool := false
  /-- The address of the code that takes traps. -/
  entry : UInt64 := 0
deriving Repr, DecidableEq, Inhabited

namespace InterruptControl

/-- A change of the registers that happens only if there is a hart to control. -/
def guarded {α : Type} (h : InterruptControl) (otherwise : α) (f : Csrs → α × Csrs) (r : Csrs) :
    α × Csrs :=
  if h.attached then f r else (otherwise, r)

/-- Points the trap vector at the entry code. -/
def setVector (h : InterruptControl) (mode : TrapMode) (r : Csrs) : Csrs :=
  (h.guarded () (fun r => ((), r.write .stvec ((h.entry &&& ~~~3) ||| mode.bits))) r).2

def vector (h : InterruptControl) (r : Csrs) : UInt64 := if h.attached then r.stvec else 0

/-- Whether a status word has interrupts enabled. -/
def isEnabledIn (status : UInt64) : Bool := status &&& Status.sie != 0

/-- Enables interrupts and says whether they were enabled before. -/
def enable (h : InterruptControl) : Csrs → Bool × Csrs :=
  h.guarded false fun r => (isEnabledIn r.sstatus, r.setBits .sstatus Status.sie)

/-- Disables interrupts and says whether they were enabled before. -/
def disable (h : InterruptControl) : Csrs → Bool × Csrs :=
  h.guarded false fun r => (isEnabledIn r.sstatus, r.clearBits .sstatus Status.sie)

/-- Enables interrupts again if they were enabled before. -/
def restore (h : InterruptControl) (wasEnabled : Bool) (r : Csrs) : Csrs :=
  if wasEnabled then (h.enable r).2 else r

def enabled (h : InterruptControl) (r : Csrs) : Bool := h.attached && isEnabledIn r.sstatus

/-- Lets one interrupt through. -/
def enableLine (h : InterruptControl) (i : Interrupt) (r : Csrs) : Csrs :=
  (h.guarded () (fun r => ((), r.setBits .sie i.mask)) r).2

/-- Holds one interrupt back. -/
def disableLine (h : InterruptControl) (i : Interrupt) (r : Csrs) : Csrs :=
  (h.guarded () (fun r => ((), r.clearBits .sie i.mask)) r).2

/-- Whether an interrupt is let through. -/
def lineEnabled (h : InterruptControl) (i : Interrupt) (r : Csrs) : Bool :=
  h.attached && r.sie &&& i.mask != 0

def linePending (h : InterruptControl) (i : Interrupt) (r : Csrs) : Bool :=
  h.attached && r.sip &&& i.mask != 0

def raiseSoftware (h : InterruptControl) (r : Csrs) : Csrs :=
  (h.guarded () (fun r => ((), r.setBits .sip Interrupt.software.mask)) r).2

/-- Takes the software interrupt back. -/
def clearSoftware (h : InterruptControl) (r : Csrs) : Csrs :=
  (h.guarded () (fun r => ((), r.clearBits .sip Interrupt.software.mask)) r).2

/-- The cause word and the trap value of the last trap. -/
def lastTrap (h : InterruptControl) (r : Csrs) : UInt64 × UInt64 :=
  if h.attached then (r.scause, r.stval) else (0, 0)

end InterruptControl

end Supervisor
