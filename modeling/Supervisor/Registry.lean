/-
The registry of trap handlers.

For each trap type the registry keeps a table of eight slots (`Bucket`), in ascending order of
priority and, among equals, in the order in which the entries came.  No two entries of one type
have the same description.

* `Registry.add` — registers a handler, or says why not;
* `Registry.remove` — removes one entry by its description;
* `Registry.removeBound` — removes those entries bound to a context that a registrar may remove;
* `Registry.purge` — removes all entries bound to a context;
* `Registry.entries` — the list of a trap type.

Design notes: a slot holds a request as it was made; the vacant slot is the request without a
handler.  What runs and what is listed are the entries made out of the slots in use.
-/
import Supervisor.Slots

namespace Supervisor

/-- The number of entries that a trap type has room for. -/
def bucketCapacity : Nat := 8

instance : Tabled Proposal where
  vacant := ⟨none, some [], {}⟩
  complete p := p.handler.isSome && p.description.isSome
  description := Proposal.description
  priority p := p.terms.priority
  isSome_description h := (Bool.and_eq_true_iff.1 h).2

/-- The entry that a request asks for, if it lacks nothing. -/
def Proposal.toEntry (p : Proposal) : Option Entry :=
  match p.handler, p.description with
  | some handler, some description => some ⟨handler, description, p.terms⟩
  | _, _ => none

/-- The slots of a trap type. -/
abbrev Bucket := SlotTable Proposal bucketCapacity

/-- The registered trap handlers. -/
structure Registry where
  buckets : Vector Bucket 16 := Vector.replicate 16 SlotTable.empty
deriving Repr, DecidableEq, Inhabited

namespace Registry

open Tabled SlotTable

/-- The slots of a trap type. -/
def bucket (r : Registry) (t : TrapType) : Bucket := r.buckets[t.index]

def setBucket (r : Registry) (t : TrapType) (b : Bucket) : Registry := ⟨r.buckets.set t.index b⟩

/-- The first `limit` entries of a trap type. -/
def snapshot (r : Registry) (t : TrapType) (limit : Nat) : List Entry :=
  ((r.bucket t).toList.take limit).filterMap Proposal.toEntry

/-- The entries of a trap type, in the order in which they run. -/
def entries (r : Registry) (t : TrapType) : List Entry :=
  (r.bucket t).toList.filterMap Proposal.toEntry

def add (r : Registry) (t : TrapType) (p : Proposal) : RegistryStatus × Registry :=
  let b := r.bucket t
  if !complete p then (.invalid, r)
  else if bucketCapacity ≤ b.count then (.full, r)
  else if b.toList.any (isCalled · ((description p).getD [])) then (.duplicate, r)
  -- there is a second look at the room before anything is moved
  else if bucketCapacity < b.count + 1 then (.full, r)
  else (.ok, r.setBucket t (b.insertAt (b.place p) p))

/-- Removes the entry with a description, if `registrar` may. -/
def remove (r : Registry) (t : TrapType) (description : Text) (registrar : Registrar) :
    RegistryStatus × Registry :=
  let b := r.bucket t
  match b.find? description with
  | none => (.notFound, r)
  | some i =>
    match (b.slot i).terms.permission registrar with
    | .granted => (.ok, r.setBucket t (b.removeAt i))
    | .protectedEntry => (.protectedEntry, r)
    | .foreignEntry => (.foreignEntry, r)

/-- The sum of a number over the trap types. -/
def sumOverTypes (f : TrapType → Nat) : Nat := TrapType.all.foldr (fun t n => f t + n) 0

/-- Removes the entries of every trap type that pass a test; gives their number. -/
def removeMatching (r : Registry) (p : Proposal → Bool) : Nat × Registry :=
  (sumOverTypes fun t => ((r.bucket t).removeAll p).1,
    ⟨r.buckets.map fun b => (b.removeAll p).2⟩)

/-- Whether an entry is bound to a context and `registrar` may remove it. -/
def isRemovable (context : ContextId) (registrar : Registrar) (p : Proposal) : Bool :=
  p.terms.isBoundTo context && p.terms.permission registrar == .granted

/-- Removes the entries bound to a context that `registrar` may remove; gives their number. -/
def removeBound (r : Registry) (context : ContextId) (registrar : Registrar) : Nat × Registry :=
  r.removeMatching (isRemovable context registrar)

/-- Removes every entry bound to a context; gives their number. -/
def purge (r : Registry) (context : ContextId) : Nat × Registry :=
  r.removeMatching (·.terms.isBoundTo context)

def clear (r : Registry) : Registry := ⟨r.buckets.map SlotTable.clear⟩

def countBound (r : Registry) (context : ContextId) : Nat :=
  sumOverTypes fun t => (r.bucket t).toList.countP (·.terms.isBoundTo context)

def count (r : Registry) (t : TrapType) : Nat := (r.bucket t).count

def total (r : Registry) : Nat := sumOverTypes r.count

/-! ### Buckets after a change -/

@[simp] theorem bucket_empty (t : TrapType) : bucket {} t = SlotTable.empty := by simp [bucket]

theorem bucket_setBucket (r : Registry) (s t : TrapType) (b : Bucket) :
    (r.setBucket s b).bucket t = if s = t then b else r.bucket t := by
  by_cases h : s = t
  · subst h
    simp [setBucket, bucket]
  · have hi : (s.index : Nat) ≠ t.index := fun e => h (TrapType.index_injective (Fin.ext e))
    simp [setBucket, bucket, h, hi]

@[simp] theorem bucket_removeMatching (r : Registry) (p : Proposal → Bool) (t : TrapType) :
    (r.removeMatching p).2.bucket t = ((r.bucket t).removeAll p).2 := by
  simp [removeMatching, bucket]

@[simp] theorem bucket_clear (r : Registry) (t : TrapType) :
    r.clear.bucket t = SlotTable.empty := by
  simp [clear, bucket]

/-- A snapshot that has room for a whole bucket takes all of it. -/
theorem snapshot_bucketCapacity (r : Registry) (t : TrapType) :
    r.snapshot t bucketCapacity = r.entries t := by
  have h : (r.bucket t).toList.length ≤ bucketCapacity := by
    rw [SlotTable.toList, List.length_take, Vector.length_toList]
    exact Nat.min_le_right _ _
  rw [snapshot, entries, List.take_of_length_le h]

/-- A registration that is refused changes nothing. -/
theorem add_of_refused {r : Registry} {t : TrapType} {p : Proposal} (h : (r.add t p).1 ≠ .ok) :
    (r.add t p).2 = r := by
  revert h
  unfold add
  dsimp only
  repeat' split
  all_goals simp

/-- A removal that is refused changes nothing. -/
theorem remove_of_refused {r : Registry} {t : TrapType} {description : Text}
    {registrar : Registrar} (h : (r.remove t description registrar).1 ≠ .ok) :
    (r.remove t description registrar).2 = r := by
  revert h
  unfold remove
  dsimp only
  split
  · simp
  · split <;> simp

end Registry

end Supervisor
