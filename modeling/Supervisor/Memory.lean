/-
Blocks of memory.

A block is a list of bytes addressed from zero.  The copying routines work one byte at a time
on the block as it stands, so what an overlapping copy does depends on the order of the
steps:

* `Memory.copy` — steps upward;
* `Memory.move` — upward when the target lies below the source, downward when it lies above,
  so that no byte is overwritten before it has been read.

`Memory.fill`, `Memory.compare` and `Memory.find` are the other three byte loops.

Design notes: what lies behind the end of a block reads as zero, and is not stored to.
-/

namespace Supervisor.Memory

abbrev Block := List UInt8

/-- One step of a copy: byte `i` of the region at `source` goes to the region at `target`. -/
def copyByte (target source : Nat) (m : Block) (i : Nat) : Block :=
  m.set (target + i) (m.getD (source + i) 0)

/-- Copies `count` bytes upward, from the lowest address to the highest. -/
def copy (m : Block) (target source count : Nat) : Block :=
  (List.range count).foldl (copyByte target source) m

/-- Copies `count` bytes downward, from the highest address to the lowest. -/
def copyDown (m : Block) (target source count : Nat) : Block :=
  (List.range count).reverse.foldl (copyByte target source) m

/-- Copies `count` bytes between two regions that may overlap. -/
def move (m : Block) (target source count : Nat) : Block :=
  if target < source then copy m target source count
  else if source < target then copyDown m target source count
  else m

/-- Stores `c` in the first `count` bytes. -/
def fill (m : Block) (c : UInt8) (count : Nat) : Block :=
  (List.range count).foldl (fun m i => m.set i c) m

/-- The order of the first `count` bytes of two blocks, by the first byte that differs. -/
def compare : Block → Block → Nat → Ordering
  | _, _, 0 => .eq
  | [], [], _ + 1 => .eq
  | a :: s, [], count + 1 => if a = 0 then compare s [] count else .gt
  | [], b :: t, count + 1 => if b = 0 then compare [] t count else .lt
  | a :: s, b :: t, count + 1 =>
    if a = b then compare s t count else if a < b then .lt else .gt

/-- The first offset below `count` that holds `c`.  One of the zeros behind the block is enough
to look at, since the others are no nearer. -/
def find (m : Block) (c : UInt8) (count : Nat) : Option Nat :=
  ((m ++ [0]).take count).findIdx? (· == c)

@[simp] theorem length_copyByte (target source : Nat) (m : Block) (i : Nat) :
    (copyByte target source m i).length = m.length := by
  simp [copyByte]

end Supervisor.Memory
