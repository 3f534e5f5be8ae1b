/-
Fixed-size records of the newest events.

A ring takes any number of items and keeps the newest ones: once it is full, each new item
takes the place of the oldest.

* `Ring.push` — adds an item;
* `Ring.size` — how many items are held, and `Ring.written` how many there have been;
* `Ring.get?` — the items held, counted from the oldest.

Design notes: a ring has no other bookkeeping than its count.  The count runs on when the ring is
full, and the slot of the next item is found from it each time.
-/

namespace Supervisor

/-- A ring of `n` slots. -/
structure Ring (α : Type) (n : Nat) where
  /-- The slots; an item stands in the slot of its number modulo `n`. -/
  slots : Vector (Option α) n := Vector.replicate n none
  /-- How many items there have been since the ring was empty. -/
  written : Nat := 0
deriving Repr, DecidableEq, Inhabited

namespace Ring

variable {α : Type} {n : Nat}

def push (r : Ring α n) (a : α) : Ring α n where
  slots := r.slots.setIfInBounds (r.written % n) (some a)
  written := r.written + 1

def size (r : Ring α n) : Nat := min r.written n

/-- The slot of the oldest item; the first round begins at the first slot. -/
def oldest (r : Ring α n) : Nat := if n < r.written then r.written % n else 0

/-- The item at a place counted from the oldest. -/
def get? (r : Ring α n) (i : Nat) : Option α :=
  if i < r.size then (r.slots[(r.oldest + i) % n]?).join else none

@[simp] theorem written_push (r : Ring α n) (a : α) : (r.push a).written = r.written + 1 := rfl

end Ring

end Supervisor
