/-
Frame slots on request.

Besides traps, whoever likes may claim a frame slot and give it back.  A guarded section claims
one for as long as it runs, and gives it back however it ends.

* `claimSlot`, `giveBackSlot` — one request;
* `guarded` — a section with a slot of its own.

Design notes: a section whose request was refused runs all the same, and has nothing to give back.
-/
import Supervisor.Machine

namespace Supervisor

variable {σ α : Type}

/-- Claims a frame slot for a hart; at the limit there is none. -/
def claimSlot (part : Part (Machine σ) Nesting) (core : UInt32) :
    Exec σ (ContextStatus × Option Slot) :=
  modifyGet fun m =>
    let (answer, level, nesting) := (part.get m).claim m.level core
    (answer, part.set nesting { m with level })

/-- The machine after a hart gave back its last frame slot, and how that went. -/
def Machine.withSlotBack (part : Part (Machine σ) Nesting) (core : UInt32) (m : Machine σ) :
    ContextStatus × Machine σ :=
  let (status, level, nesting) := (part.get m).giveBack m.level core
  (status, part.set nesting { m with level })

/-- Gives back the last frame slot of a hart. -/
def giveBackSlot (part : Part (Machine σ) Nesting) (core : UInt32) : Exec σ ContextStatus :=
  modifyGet (Machine.withSlotBack part core)

/-- Runs `body`, which learns how the request went, with a frame slot of its own. -/
def guarded (part : Part (Machine σ) Nesting) (core : UInt32)
    (body : ContextStatus → Option Slot → Exec σ α) : Exec σ α := do
  let (status, slot) ← claimSlot part core
  if status = .ok then
    (body status slot).finally fun m => (m.withSlotBack part core).2
  else body status slot

end Supervisor
