/-
Text buffers of fixed size.

A buffer is a block of bytes whose length never changes.  A terminated string stands in it from
its first byte up to the first NUL.  Copying into a buffer and appending to the string in it
cut what does not fit, and end what they leave with a NUL.

* `Buffer.copyWithin`, `Buffer.copyFrom` — replaces the string; says whether all of it fitted;
* `Buffer.append` — extends the string, up to a given limit on the size of the whole.

Design notes: a block may be longer than the part of it that a string may take up, so that a write
beyond that part would show.
-/
import Supervisor.Text

namespace Supervisor

abbrev Buffer := List UInt8

namespace Buffer

/-- A buffer of `size` bytes that nobody has written to yet. -/
def blank (size : Nat) : Buffer := List.replicate size 126

/-- Stores the bytes of `t` from position `i` on; what lies beyond the end is dropped. -/
def store (b : Buffer) (i : Nat) : Text → Buffer
  | [] => b
  | c :: t => store (b.set i c) (i + 1) t

/-- The string in a buffer; an empty buffer holds none. -/
def content? (b : Buffer) : Option Text := if b.isEmpty then none else some (Text.upToNul b)

/-- Copies a string into the first `size` bytes of a block.  The answer is whether the whole string
fitted; one that does not is cut so that the closing NUL has room.  Without a string they are left
with the empty one. -/
def copyWithin (b : Buffer) (size : Nat) (source : Option Text) : Bool × Buffer :=
  if size = 0 then (false, b)
  else
    match source with
    | none => (false, b.set 0 0)
    | some t =>
      if t.length < size then (true, b.store 0 (t ++ [0]))
      else (false, (b.store 0 (t.take (size - 1))).set (size - 1) 0)

/-- Copies a string into a buffer. -/
def copyFrom (b : Buffer) (source : Option Text) : Bool × Buffer := copyWithin b b.length source

/-- Appends to the string in a buffer as much of `source` as leaves the string, with its
closing NUL, within `limit` bytes. -/
def append (b : Buffer) (source : Option Text) (limit : Nat) : Buffer :=
  match source with
  | none => b
  | some t =>
    let used := (Text.upToNul b).length
    if used + 1 < limit then
      let added := t.take (limit - used - 1)
      (b.store used added).set (used + added.length) 0
    else b

@[simp] theorem length_store (b : Buffer) (i : Nat) (t : Text) :
    (store b i t).length = b.length := by
  induction t generalizing b i with
  | nil => rfl
  | cons c t ih => simp [store, ih]

/-- A text that fits replaces what was in its place. -/
theorem store_eq {b : Buffer} {i : Nat} {t : Text} (h : i + t.length ≤ b.length) :
    b.store i t = b.take i ++ (t ++ b.drop (i + t.length)) := by
  induction t generalizing b i with
  | nil => simp [store]
  | cons c t ih =>
    have hlength : i + 1 + t.length ≤ b.length := by
      rw [List.length_cons] at h
      omega
    have hfront : (b.set i c).take (i + 1) = b.take i ++ [c] := by
      rw [List.take_add_one, List.take_set_of_le (Nat.le_refl i),
        List.getElem?_set_self (by omega), Option.toList_some]
    have hback : (b.set i c).drop (i + 1 + t.length) = b.drop (i + (c :: t).length) := by
      rw [List.drop_set_of_lt (by omega), List.length_cons]
      congr 1
      omega
    rw [store, ih (by rwa [List.length_set]), hfront, hback]
    simp

/-- The byte behind what stands in front of a block. -/
theorem set_behind {b : Buffer} {front : Text} (h : front.length < b.length) (c : UInt8) :
    (front ++ b.drop front.length).set front.length c =
      front ++ c :: b.drop (front.length + 1) := by
  rw [List.set_append_right _ _ (Nat.le_refl _), Nat.sub_self, List.drop_eq_getElem_cons h,
    List.set_cons_zero]

@[simp] theorem length_append (b : Buffer) (source : Option Text) (limit : Nat) :
    (append b source limit).length = b.length := by
  unfold append
  split
  · rfl
  · dsimp only
    split <;> simp

@[simp] theorem length_copyWithin (b : Buffer) (size : Nat) (source : Option Text) :
    (copyWithin b size source).2.length = b.length := by
  unfold copyWithin
  split
  · rfl
  · split
    · simp
    · split <;> simp

end Buffer

end Supervisor
