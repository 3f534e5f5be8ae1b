/-
The pool of execution contexts.

A pool has 64 records.  A record in use stands for one context and carries its number, a name, a
token and a version; whoever made the context holds a handle with the number, the token and the
version.  When the context goes away the record is free for another one, but no earlier handle
fits it again.

* `Pool.create` — takes the first record that is not in use;
* `Pool.locate` — the record that a handle fits, or why there is none;
* `Pool.terminate` — ends the context in a record;
* `Pool.modify` — changes one record.
-/
import Supervisor.Spinlock
import Supervisor.Text
import Supervisor.Trap.Handler

namespace Supervisor

def poolCapacity : Nat := 64

def nameCapacity : Nat := 31

/-- What a record is used for. -/
inductive ContextState where
  | free
  | active
  | terminated
deriving Repr, DecidableEq, Inhabited

/-- How an operation on a pool ends. -/
inductive PoolStatus where
  | ok
  | full
  | notFound
  | invalidToken
  | stale
  | busy
deriving Repr, DecidableEq

namespace PoolStatus

def all : List PoolStatus := [ok, full, notFound, invalidToken, stale, busy]

def name : PoolStatus → String
  | ok => "None"
  | full => "Context pool is full"
  | notFound => "Context not found"
  | invalidToken => "Invalid access token"
  | stale => "Context handle is stale"
  | busy => "Context pool busy"

end PoolStatus

/-- What the maker of a context holds. -/
structure Handle where
  id : ContextId := 0
  token : UInt32 := 0
  version : UInt32 := 0
deriving Repr, DecidableEq, Inhabited

structure ContextRecord where
  id : ContextId := 0
  name : Text := []
  state : ContextState := .free
  token : UInt32 := 0
  version : UInt32 := 0
  /-- A byte that the holder of the handle may use. -/
  userState : UInt8 := 0
deriving Repr, DecidableEq, Inhabited

/-- The handle that fits a record. -/
def ContextRecord.handle (r : ContextRecord) : Handle := ⟨r.id, r.token, r.version⟩

def ContextRecord.isActive (r : ContextRecord) : Bool := r.state == .active

structure Pool where
  lock : Spinlock := {}
  records : Vector ContextRecord poolCapacity := Vector.replicate poolCapacity {}
  /-- The token given out last. -/
  lastToken : UInt32 := 0x5a17
deriving Repr, DecidableEq, Inhabited

namespace Pool

/-- The token given out after another one; zero is never given out. -/
def tokenAfter (token : UInt32) : UInt32 := if token + 1 = 0 then 1 else token + 1

/-- The first record that satisfies `q`. -/
def first (p : Pool) (q : ContextRecord → Bool) : Option (Fin poolCapacity) :=
  (List.finRange poolCapacity).find? fun i => q p.records[i]

/-- The first record that is not in use. -/
def vacant (p : Pool) : Option (Fin poolCapacity) := p.first (!·.isActive)

/-- Takes a record for a new context with the number `id`; gives its handle. -/
def create (p : Pool) (i : Fin poolCapacity) (id : ContextId) (name : Text) : Handle × Pool :=
  let token := tokenAfter p.lastToken
  let r : ContextRecord :=
    { id, name := Text.upToNul (name.take nameCapacity), state := .active, token
      version := p.records[i].version + 1, userState := 0 }
  (r.handle, { p with records := p.records.set i r, lastToken := token })

/-- The record that a handle fits.  Of the records in use the first with the handle's number
decides. -/
def locate (p : Pool) (h : Handle) : Except PoolStatus (Fin poolCapacity) :=
  match p.first (fun r => r.isActive && r.id == h.id) with
  | none => .error .notFound
  | some i =>
    if p.records[i].token ≠ h.token then .error .invalidToken
    else if p.records[i].version ≠ h.version then .error .stale
    else .ok i

def modify (p : Pool) (i : Fin poolCapacity) (f : ContextRecord → ContextRecord) : Pool :=
  { p with records := p.records.set i (f p.records[i]) }

/-- Ends the context in a record. -/
def terminate (p : Pool) (i : Fin poolCapacity) : Pool :=
  p.modify i fun r => { r with state := .terminated, token := 0 }

def activeCount (p : Pool) : Nat := p.records.toList.countP (·.isActive)

@[simp] theorem tokenAfter_ne_zero (token : UInt32) : tokenAfter token ≠ 0 := by
  unfold tokenAfter
  split
  · decide
  · assumption

theorem holds_of_first {p : Pool} {q : ContextRecord → Bool} {i : Fin poolCapacity}
    (h : p.first q = some i) : q p.records[i] = true := by
  unfold first at h
  simpa using List.find?_some h

theorem first_eq_none_iff {p : Pool} {q : ContextRecord → Bool} :
    p.first q = none ↔ ∀ i : Fin poolCapacity, q p.records[i] = false := by
  simp [first, List.find?_eq_none]

@[simp] theorem records_modify_self (p : Pool) (i : Fin poolCapacity)
    (f : ContextRecord → ContextRecord) : (p.modify i f).records[i] = f p.records[i] := by
  simp [modify]

/-- A handle fits a record only if that is in use and has the same number, token and version. -/
theorem handle_of_locate {p : Pool} {h : Handle} {i : Fin poolCapacity} (hi : p.locate h = .ok i) :
    p.records[i].isActive ∧ p.records[i].handle = h := by
  unfold locate at hi
  split at hi
  · cases hi
  · rename_i j hj
    split at hi
    · cases hi
    · rename_i ht
      split at hi
      · cases hi
      · rename_i hv
        obtain rfl := Except.ok.inj hi
        obtain ⟨hactive, hid⟩ : p.records[j].isActive = true ∧ p.records[j].id = h.id := by
          simpa using holds_of_first hj
        refine ⟨hactive, ?_⟩
        cases h
        simp_all [ContextRecord.handle]

end Pool

end Supervisor
