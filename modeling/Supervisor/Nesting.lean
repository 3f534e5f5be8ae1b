/-
Trap nesting.

Every trap in progress holds one frame slot.  The slots stand in banks, one per hart, and a
bank is filled and emptied from its end; hart numbers beyond the number of banks fold onto the
existing ones.  How many traps are in progress at all is one count shared by everybody, and
each `Nesting` refuses a trap once that count has reached its limit.

* `Nesting.enter` — claims the next slot of a hart's bank;
* `Nesting.leave` — gives back the last one;
* `Nesting.claim`, `Nesting.giveBack` — the same as requests that are answered with a status;
* `Nesting.frame?` — what a hart stored in one of its open slots;
* `Nesting.setLimit` — the limit, between one and the number of slots of a bank.
-/
import Supervisor.Trap.Frame

namespace Supervisor

def bankCount : Nat := 4

/-- The size of a hart's interrupt stack in bytes. -/
def interruptStackSize : Nat := 16384

/-- The number of frames that a hart's interrupt stack has room for. -/
def slotCount : Nat := interruptStackSize / frameSize

/-- The nesting limit before anybody sets one. -/
def defaultNestLimit : Nat := 8

/-- Why a context operation failed, or that it did not. -/
inductive ContextStatus where
  | ok
  | overflow
  | underflow
  | invalid
  | unsupported
deriving Repr, DecidableEq

namespace ContextStatus

def all : List ContextStatus := [ok, overflow, underflow, invalid, unsupported]

def name : ContextStatus → String
  | ok => "None"
  | overflow => "StackOverflow"
  | underflow => "StackUnderflow"
  | invalid => "InvalidContext"
  | unsupported => "UnsupportedOperation"

end ContextStatus

/-- The frame slots of one hart. -/
structure Bank where
  /-- How many of the slots are open. -/
  depth : Nat := 0
  /-- The slots; those past `depth` keep what was last stored in them. -/
  slots : Vector Frame slotCount := Vector.replicate slotCount {}
deriving Repr, DecidableEq, Inhabited

/-- The frame slots of all harts. -/
structure Nesting where
  /-- Whether register images of the hart can be taken and loaded. -/
  attached : Bool := false
  /-- The highest number of traps in progress. -/
  limit : Nat := defaultNestLimit
  banks : Vector Bank bankCount := Vector.replicate bankCount {}
deriving Repr, DecidableEq, Inhabited

/-- The place of a slot: a bank and a position in it. -/
structure Slot where
  bank : Fin bankCount
  position : Nat
deriving Repr, DecidableEq

namespace Nesting

def bankOf (core : UInt32) : Fin bankCount :=
  ⟨core.toNat % bankCount, Nat.mod_lt _ (by decide)⟩

def bank (n : Nesting) (core : UInt32) : Bank := n.banks[bankOf core]

def setBank (n : Nesting) (i : Fin bankCount) (b : Bank) : Nesting :=
  { n with banks := n.banks.set i b }

/-- How many slots of a bank are open. -/
def depth (n : Nesting) (b : Fin bankCount) : Nat := n.banks[b].depth

/-- The nesting with another depth of one bank. -/
def withDepth (n : Nesting) (b : Fin bankCount) (d : Nat) : Nesting :=
  n.setBank b { n.banks[b] with depth := d }

/-- Claims the next slot of a hart at the shared level `level`; the level goes up by one.
Nothing happens at the limit. -/
def enter (n : Nesting) (level : Nat) (core : UInt32) : Option (Slot × Nat × Nesting) :=
  if n.limit ≤ level then none
  else
    let b := n.bank core
    some (⟨bankOf core, b.depth⟩, level + 1, n.setBank (bankOf core) { b with depth := b.depth + 1 })

/-- Gives back the last slot of a hart; the shared level goes down by one. -/
def leave (n : Nesting) (level : Nat) (core : UInt32) : Option (Nat × Nesting) :=
  let b := n.bank core
  if b.depth = 0 || level = 0 then none
  else some (level - 1, n.setBank (bankOf core) { b with depth := b.depth - 1 })

/-- A request for the next slot of a hart: how it went and the slot that was granted, and the shared
level and the slots after it. -/
def claim (n : Nesting) (level : Nat) (core : UInt32) :
    (ContextStatus × Option Slot) × Nat × Nesting :=
  match n.enter level core with
  | none => ((.overflow, none), level, n)
  | some (slot, level', n') => ((.ok, some slot), level', n')

/-- A request to take back the last slot of a hart: how it went, and the shared level and the slots
after it. -/
def giveBack (n : Nesting) (level : Nat) (core : UInt32) : ContextStatus × Nat × Nesting :=
  match n.leave level core with
  | none => (.underflow, level, n)
  | some (level', n') => (.ok, level', n')

def slotFrame (n : Nesting) (s : Slot) : Frame := (n.banks[s.bank]).slots[s.position]?.getD {}

def storeFrame (n : Nesting) (s : Slot) (f : Frame) : Nesting :=
  let b := n.banks[s.bank]
  n.setBank s.bank { b with slots := b.slots.setIfInBounds s.position f }

/-- The frame that a hart stored in the slot it opened as its `level`-th, if that is open. -/
def frame? (n : Nesting) (level : Nat) (core : UInt32) : Option Frame :=
  if level = 0 || (n.bank core).depth < level then none
  else some (n.slotFrame ⟨bankOf core, level - 1⟩)

/-- Sets the limit to the nearest possible one. -/
def setLimit (n : Nesting) (limit : Nat) : Nesting := { n with limit := min (max limit 1) slotCount }

/-- The bytes of a hart's interrupt stack that are in use. -/
def usedBytes (n : Nesting) (core : UInt32) : Nat := (n.bank core).depth * frameSize

theorem getElem_setBank (n : Nesting) (i j : Fin bankCount) (v : Bank) :
    (n.setBank i v).banks[j] = if i = j then v else n.banks[j] := by
  simp only [setBank, Fin.getElem_fin, Vector.getElem_set, Fin.ext_iff]

@[simp] theorem bank_setBank (n : Nesting) (core : UInt32) (b : Bank) :
    (n.setBank (bankOf core) b).bank core = b := by
  simp [setBank, bank]

theorem bank_setBank_of_ne (n : Nesting) {i : Fin bankCount} {core : UInt32} (b : Bank)
    (h : i ≠ bankOf core) : (n.setBank i b).bank core = n.bank core := by
  have hi : (i : Nat) ≠ bankOf core := fun e => h (Fin.ext e)
  simp [setBank, bank, hi]

/-- A slot is granted exactly below the limit. -/
theorem enter_eq_none_iff {n : Nesting} {level : Nat} {core : UInt32} :
    n.enter level core = none ↔ n.limit ≤ level := by
  simp [enter]

/-- Giving back the slot that was claimed last undoes the claim. -/
theorem leave_of_enter {n n' : Nesting} {level level' : Nat} {core : UInt32} {s : Slot}
    (h : n.enter level core = some (s, level', n')) : n'.leave level' core = some (level, n) := by
  unfold enter at h
  split at h
  · cases h
  · simp only [Option.some.injEq, Prod.mk.injEq] at h
    obtain ⟨-, rfl, rfl⟩ := h
    have undo : (n.setBank (bankOf core) { n.bank core with depth := (n.bank core).depth + 1 }).setBank
        (bankOf core) (n.bank core) = n := by
      simp [setBank, bank]
    simp [leave, undo]

end Nesting

end Supervisor
