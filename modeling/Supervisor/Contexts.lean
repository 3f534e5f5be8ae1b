/-
Execution contexts.

A context is made in a pool and ends by its handle.  When it ends, every trap handler bound to it
goes away with it, whoever registered the handler.

* `Contexts.create`, `Contexts.destroy` — the life of a context;
* `Contexts.validate`, `Contexts.access` — what a handle gives access to;
* `Contexts.print` — the contexts in use.

Design notes: the operations work on any pool beside the trap system.  A hart that holds the lock
of the pool already is turned away.
-/
import Supervisor.System.Access

namespace Supervisor.Contexts

variable {σ : Type}

/-- The lock of a pool. -/
def lock (pool : Part (Machine σ) Pool) : Part (Machine σ) Spinlock :=
  pool.comp { get := (·.lock), set l p := { p with lock := l } }

/-- Runs an action under the lock of a pool. -/
def locked {α : Type} (pool : Part (Machine σ) Pool) (body refused : Exec σ α) : Exec σ α := do
  withLock (lock pool) (← System.currentHart) body refused

/-- Makes a context; gives its handle. -/
def create (pool : Part (Machine σ) Pool) (name : Text) : Exec σ (Except PoolStatus Handle) :=
  locked pool
    (do
      match (← pool.read).vacant with
      | none => return .error .full
      | some i =>
        let id ← newContextId
        return .ok (← pool.change (·.create i id name)))
    (return .error .busy)

/-- Looks at the record that a handle fits, and may change it. -/
def access {α : Type} (pool : Part (Machine σ) Pool) (h : Handle)
    (f : ContextRecord → α × ContextRecord) : Exec σ (Except PoolStatus α) :=
  locked pool
    (pool.change fun p =>
      match p.locate h with
      | .error e => (.error e, p)
      | .ok i => (.ok (f (p.records.get i)).1, p.modify i fun r => (f r).2))
    (return .error .busy)

/-- Whether a handle fits a record, and if not, why. -/
def validate (pool : Part (Machine σ) Pool) (h : Handle) : Exec σ PoolStatus := do
  match ← access pool h fun r => ((), r) with
  | .ok () => return .ok
  | .error e => return e

/-- The number of contexts in use, zero under a lock of the same hart. -/
def activeCount (pool : Part (Machine σ) Pool) : Exec σ Nat :=
  locked pool (return (← pool.read).activeCount) (return 0)

variable [Client σ]

/-- Ends the context of a handle; gives the number of handlers that went away with it. -/
def destroy (pool : Part (Machine σ) Pool) (h : Handle) : Exec σ (Except PoolStatus Nat) := do
  let ended : Except PoolStatus Unit ← locked pool
    (pool.change fun p =>
      match p.locate h with
      | .error e => (.error e, p)
      | .ok i => (.ok (), p.terminate i))
    (return .error .busy)
  match ended with
  | .error e => return .error e
  | .ok () =>
    let removal ← System.purge h.id
    let id := Numeral.decimal h.id.toNat
    let sink ← System.console
    if removal.status = .ok then
      putLine sink ["[TRAP] context ", id, " terminated, ", Numeral.decimal removal.removed,
        " handlers cleaned up\n"]
    else
      putLine sink ["[ERROR] context ", id, ": handler cleanup skipped, registry busy\n"]
    return .ok removal.removed

/-- The line of a context in use. -/
def recordLine (i : Nat) (r : ContextRecord) : List Text :=
  ["  [", Numeral.decimal i, "] id=", Numeral.decimal r.id.toNat, " name=", r.name, " version=",
    Numeral.decimal r.version.toNat, " state=", Numeral.decimal r.userState.toNat, "\n"]

/-- Prints the contexts in use, unless the hart holds the lock already. -/
def print (pool : Part (Machine σ) Pool) (sink : Sink) : Exec σ Unit := do
  match sink with
  | .nowhere => return
  | .console =>
    locked pool
      (do
        putsUnguarded sink "=== Execution contexts ===\n"
        (← pool.read).records.toList.zipIdx.forM fun (r, i) => do
          if r.isActive then putLine sink (recordLine i r))
      (return)

end Supervisor.Contexts
