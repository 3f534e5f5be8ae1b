/-
Spinlocks that know their holder.

A lock is a flag and the number of the hart that holds it.  It is taken and given back by single
accesses to these two words (`Spinlock.Access`), one after the other:

* `tryAcquire` — one attempt, which fails when the flag is set;
* `acquire` — attempts until one succeeds, but gives up at once when the asking hart is
  recorded as the holder;
* `release` — clears the holder and then the flag.

Design notes: a hart that waits for another one cannot make progress by itself, so `acquire`
answers `waits` there instead of looping.
-/

namespace Supervisor

/-- The hart number recorded while nobody holds a lock. -/
def noOwner : UInt32 := 0xffffffff

structure Spinlock where
  /-- Set while the lock is taken. -/
  flag : Bool := false
  /-- The hart that took it. -/
  owner : UInt32 := noOwner
deriving Repr, DecidableEq, Inhabited

namespace Spinlock

/-- One access to the words of a lock. -/
inductive Access where
  | setFlag
  | clearFlag
  | recordOwner (core : UInt32)
deriving Repr, DecidableEq

/-- The lock after an access. -/
def Access.apply : Access → Spinlock → Spinlock
  | .setFlag, l => { l with flag := true }
  | .clearFlag, l => { l with flag := false }
  | .recordOwner core, l => { l with owner := core }

/-- The accesses by which `core` takes a free lock, in order. -/
def acquisition (core : UInt32) : List Access := [.setFlag, .recordOwner core]

/-- The accesses by which a lock is given back, in order. -/
def releasing : List Access := [.recordOwner noOwner, .clearFlag]

/-- The lock after a series of accesses. -/
def run (l : Spinlock) (accesses : List Access) : Spinlock := accesses.foldl (fun l a => a.apply l) l

/-- Whether `core` is seen to hold the lock. -/
def isHeldBy (l : Spinlock) (core : UInt32) : Bool := l.flag && l.owner == core

/-- One attempt to take the lock: nothing when it is taken already. -/
def tryAcquire (l : Spinlock) (core : UInt32) : Option Spinlock :=
  if l.flag then none else some (l.run (acquisition core))

def release (l : Spinlock) : Spinlock := l.run releasing

/-- How a request for a lock ends. -/
inductive Request where
  | granted (lock : Spinlock)
  | refused
  | waits
deriving Repr, DecidableEq

/-- A request for the lock that waits for other harts but not for the asking one. -/
def acquire (l : Spinlock) (core : UInt32) : Request :=
  match l.tryAcquire core with
  | some l' => .granted l'
  | none => if l.isHeldBy core then .refused else .waits

@[simp] theorem release_eq (l : Spinlock) : l.release = ⟨false, noOwner⟩ := rfl

theorem tryAcquire_eq_some_iff {l l' : Spinlock} {core : UInt32} :
    l.tryAcquire core = some l' ↔ l.flag = false ∧ l' = ⟨true, core⟩ := by
  cases h : l.flag <;> simp [tryAcquire, h, run, acquisition, Access.apply, eq_comm]

end Spinlock

end Supervisor
