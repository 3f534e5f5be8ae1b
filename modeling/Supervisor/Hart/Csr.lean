/-
Control and status registers.

The supervisor registers of a hart that the trap machinery touches.  A register is read and
written as a whole; setting and clearing bits gives back the value from before.
-/
import Supervisor.Trap.Frame

namespace Supervisor

inductive Csr where
  | sstatus
  | sie
  | sip
  | stvec
  | sepc
  | scause
  | stval
  | satp
deriving Repr, DecidableEq

/-- The registers of a hart.  A hart starts in supervisor mode with everything else zero. -/
structure Csrs where
  sstatus : UInt64 := Status.spp
  sie : UInt64 := 0
  sip : UInt64 := 0
  stvec : UInt64 := 0
  sepc : UInt64 := 0
  scause : UInt64 := 0
  stval : UInt64 := 0
  satp : UInt64 := 0
deriving Repr, DecidableEq, Inhabited

namespace Csrs

def read (r : Csrs) : Csr → UInt64
  | .sstatus => r.sstatus
  | .sie => r.sie
  | .sip => r.sip
  | .stvec => r.stvec
  | .sepc => r.sepc
  | .scause => r.scause
  | .stval => r.stval
  | .satp => r.satp

def write (r : Csrs) (csr : Csr) (v : UInt64) : Csrs :=
  match csr with
  | .sstatus => { r with sstatus := v }
  | .sie => { r with sie := v }
  | .sip => { r with sip := v }
  | .stvec => { r with stvec := v }
  | .sepc => { r with sepc := v }
  | .scause => { r with scause := v }
  | .stval => { r with stval := v }
  | .satp => { r with satp := v }

def setBits (r : Csrs) (csr : Csr) (mask : UInt64) : Csrs := r.write csr (r.read csr ||| mask)

def clearBits (r : Csrs) (csr : Csr) (mask : UInt64) : Csrs :=
  r.write csr (r.read csr &&& ~~~mask)

@[simp] theorem read_write_self (r : Csrs) (csr : Csr) (v : UInt64) :
    (r.write csr v).read csr = v := by
  cases csr <;> rfl

theorem read_write_of_ne {r : Csrs} {a b : Csr} (h : a ≠ b) (v : UInt64) :
    (r.write a v).read b = r.read b := by
  cases a <;> cases b <;> first | rfl | exact absurd rfl h

end Csrs

end Supervisor
