/-
The machine.

A `Machine` is everything that a run can change: the platform, the trap system with its tables,
the operator console, and the private state of the clients.  What a run does is an action of the
monad `Exec`, which may stop early but keeps all that was done before.  Handlers of traps act on
the frame of their trap as well (`TrapExec`), and the frame is kept by a stop too.

* `Client` — what the machine asks of its clients: their handlers of traps and of errors, their
  commands, and an observer of the console;
* `Exec.runOn`, `TrapExec.runOn` — what an action does to a machine;
* `Part` — a part of the machine that an operation works on; operations on tables are written for
  any such part, so the machine and its clients may have several;
* `withLock` — runs an action under a lock of the calling hart.

Each way to build an action has a lemma that says how the whole runs.

Design notes: clients may do anything in their handlers, including taking traps and changing the
tables that are being walked.  `Client` is a class so that the state of the clients determines
them.
-/
import Supervisor.Command.Table
import Supervisor.Fault.Table
import Supervisor.Hart.Platform
import Supervisor.Interrupts
import Supervisor.Nesting
import Supervisor.Pool
import Supervisor.Registry
import Supervisor.Trace

namespace Supervisor

/-- How the trap system is set up. -/
structure Config where
  nestLimit : Nat := defaultNestLimit
  /-- Whether each trap is announced on the console. -/
  logTraps : Bool := false
  /-- Whether tracing starts enabled. -/
  traced : Bool := true
  /-- Whether the basic trap handlers are installed. -/
  basicHandlers : Bool := true
  /-- Whether the basic error handlers are installed. -/
  errorHandlers : Bool := true
deriving Repr, DecidableEq, Inhabited

structure System where
  /-- Whether the system knows its platform. -/
  bound : Bool := false
  config : Config := {}
  interrupts : InterruptControl := {}
  nesting : Nesting := {}
  /-- The lock of the registry. -/
  lock : Spinlock := {}
  registry : Registry := {}
  errors : ErrorTable := {}
  trace : Trace := {}
  /-- Set by the first request to start the system. -/
  claimed : Bool := false
  /-- Set once the system has been started. -/
  ready : Bool := false
deriving Repr, DecidableEq, Inhabited

/-- The machine, with private state `σ` of its clients. -/
structure Machine (σ : Type) where
  platform : Platform := {}
  /-- The number of traps in progress. -/
  level : Nat := 0
  nextRegistrar : Registrar := 1
  nextContext : ContextId := 1
  system : System := {}
  console : CommandTable := default
  /-- The contexts of the kernel itself. -/
  pool : Pool := {}
  ticks : UInt64 := 0
  clients : σ

/-- What a run does: it may stop early, and what was done before a stop stays done. -/
abbrev Exec (σ : Type) := ExceptT Stop (StateM (Machine σ))

/-- What a trap handler does to its frame and to the machine. -/
abbrev TrapExec (σ : Type) := ExceptT Stop (StateT Frame (StateM (Machine σ)))

/-- Runs an action on a machine: how it ended, and the machine after it. -/
def Exec.runOn {σ α : Type} (x : Exec σ α) (m : Machine σ) : Except Stop α × Machine σ :=
  ExceptT.run x m

/-- Runs an action of a trap on a frame and a machine: how it ended, the frame and the machine
after it. -/
def TrapExec.runOn {σ α : Type} (x : TrapExec σ α) (f : Frame) (m : Machine σ) :
    (Except Stop α × Frame) × Machine σ :=
  StateT.run (ExceptT.run x) f m

/-- An action on the machine, from within a trap. -/
def onMachine {σ α : Type} (x : Exec σ α) : TrapExec σ α := ExceptT.mk (StateT.lift x.run)

/-- Where output goes: nowhere, or to the console of the platform. -/
inductive Sink where
  | nowhere
  | console
deriving Repr, DecidableEq

/-- What the machine asks of its clients. -/
class Client (σ : Type) where
  trapHandler : Nat → TrapExec σ Verdict
  errorHandler : Nat → SystemError → Exec σ ErrorOutcome
  /-- Carries out a command; gives its status. -/
  command : Nat → (arguments : Text) → Sink → Exec σ Int
  /-- Learns what was just written to the console. -/
  written : Text → Exec σ Unit

/-- A part of a larger state: a place that is read and written. -/
structure Part (S A : Type) where
  get : S → A
  set : A → S → S
  /-- What was written is read. -/
  get_set (a : A) (s : S) : get (set a s) = a := by intros; rfl
  /-- Writing what is there changes nothing. -/
  set_get (s : S) : set (get s) s = s := by intros; rfl
  /-- Only what was written last counts. -/
  set_set (a b : A) (s : S) : set a (set b s) = set a s := by intros; rfl

namespace Part

attribute [simp] get_set set_get set_set

variable {σ S A B : Type}

def comp (p : Part S A) (q : Part A B) : Part S B where
  get s := q.get (p.get s)
  set b s := p.set (q.set b (p.get s)) s
  get_set b s := by simp
  set_get s := by simp
  set_set a b s := by simp

/-- Whether writing one part leaves another one alone. -/
def Apart (p : Part S A) (q : Part S B) : Prop := ∀ b s, p.get (q.set b s) = p.get s

def read (p : Part (Machine σ) A) : Exec σ A := do return p.get (← getThe (Machine σ))

/-- Changes a part and gives what the change computes. -/
def change (p : Part (Machine σ) A) (f : A → B × A) : Exec σ B :=
  modifyGet fun m => ((f (p.get m)).1, p.set (f (p.get m)).2 m)

def update (p : Part (Machine σ) A) (f : A → A) : Exec σ Unit :=
  modify fun m => p.set (f (p.get m)) m

end Part

namespace Machine

variable {σ : Type}

def thePlatform : Part (Machine σ) Platform where
  get := (·.platform)
  set a m := { m with platform := a }

def theSystem : Part (Machine σ) System where
  get := (·.system)
  set a m := { m with system := a }

def theConsole : Part (Machine σ) CommandTable where
  get := (·.console)
  set a m := { m with console := a }

def thePool : Part (Machine σ) Pool where
  get := (·.pool)
  set a m := { m with pool := a }

def theClients : Part (Machine σ) σ where
  get := (·.clients)
  set a m := { m with clients := a }

def theRegistry : Part (Machine σ) Registry :=
  theSystem.comp { get := (·.registry), set a s := { s with registry := a } }

def theInterrupts : Part (Machine σ) InterruptControl :=
  theSystem.comp { get := (·.interrupts), set a s := { s with interrupts := a } }

def theLock : Part (Machine σ) Spinlock :=
  theSystem.comp { get := (·.lock), set a s := { s with lock := a } }

def theTrace : Part (Machine σ) Trace :=
  theSystem.comp { get := (·.trace), set a s := { s with trace := a } }

def theErrors : Part (Machine σ) ErrorTable :=
  theSystem.comp { get := (·.errors), set a s := { s with errors := a } }

def theNesting : Part (Machine σ) Nesting :=
  theSystem.comp { get := (·.nesting), set a s := { s with nesting := a } }

end Machine

/-! ### How actions run -/

section Runs

variable {σ α β A B : Type}

@[simp] theorem Exec.runOn_pure (a : α) (m : Machine σ) :
    Exec.runOn (pure a : Exec σ α) m = (.ok a, m) := rfl

@[simp] theorem Exec.runOn_throw (e : Stop) (m : Machine σ) :
    Exec.runOn (throw e : Exec σ α) m = (.error e, m) := rfl

@[simp] theorem Exec.runOn_get (m : Machine σ) :
    Exec.runOn (getThe (Machine σ) : Exec σ (Machine σ)) m = (.ok m, m) := rfl

@[simp] theorem Exec.runOn_set (s m : Machine σ) :
    Exec.runOn (set s : Exec σ PUnit) m = (.ok ⟨⟩, s) := rfl

@[simp] theorem Exec.runOn_modify (f : Machine σ → Machine σ) (m : Machine σ) :
    Exec.runOn (modify f : Exec σ Unit) m = (.ok (), f m) := rfl

/-- A sequence goes on from where its first part left the machine, or stops with it. -/
theorem Exec.runOn_bind (x : Exec σ α) (f : α → Exec σ β) (m : Machine σ) :
    Exec.runOn (x >>= f) m =
      match Exec.runOn x m with
      | (.ok a, m') => Exec.runOn (f a) m'
      | (.error e, m') => (.error e, m') := by
  simp only [Exec.runOn, bind, ExceptT.bind, ExceptT.mk, ExceptT.run, StateT.bind]
  cases h : x m with
  | mk ended m' =>
    cases ended with
    | ok a => rfl
    | error e => rfl

theorem Exec.runOn_bind_of_ok {x : Exec σ α} {f : α → Exec σ β} {m m' : Machine σ} {a : α}
    (h : Exec.runOn x m = (.ok a, m')) : Exec.runOn (x >>= f) m = Exec.runOn (f a) m' := by
  rw [Exec.runOn_bind, h]

theorem Exec.runOn_bind_of_error {x : Exec σ α} {f : α → Exec σ β} {m m' : Machine σ} {e : Stop}
    (h : Exec.runOn x m = (.error e, m')) : Exec.runOn (x >>= f) m = (.error e, m') := by
  rw [Exec.runOn_bind, h]

/-- A sequence that returned has gone through both of its parts. -/
theorem Exec.of_runOn_bind_eq_ok {x : Exec σ α} {f : α → Exec σ β} {m m' : Machine σ} {b : β}
    (h : Exec.runOn (x >>= f) m = (.ok b, m')) :
    ∃ a m₁, Exec.runOn x m = (.ok a, m₁) ∧ Exec.runOn (f a) m₁ = (.ok b, m') := by
  rw [Exec.runOn_bind] at h
  split at h
  · rename_i a m₁ heq
    exact ⟨a, m₁, heq, h⟩
  · cases congrArg Prod.fst h

/-- A sequence goes on in the same way if it does so wherever its first part leaves the machine. -/
theorem Exec.runOn_bind_congr {x : Exec σ α} {f g : α → Exec σ β} {m : Machine σ}
    (h : ∀ a m', runOn x m = (.ok a, m') → runOn (f a) m' = runOn (g a) m') :
    runOn (x >>= f) m = runOn (x >>= g) m := by
  rw [runOn_bind, runOn_bind]
  cases hx : runOn x m with
  | mk r m' =>
    cases r with
    | error e => rfl
    | ok a => exact h a m' hx

/-- What stops an action is handed on, along with the machine at that moment. -/
theorem Exec.runOn_tryCatch (x : Exec σ α) (h : Stop → Exec σ α) (m : Machine σ) :
    Exec.runOn (tryCatch x h) m =
      match Exec.runOn x m with
      | (.ok a, m') => (.ok a, m')
      | (.error e, m') => Exec.runOn (h e) m' := by
  simp only [Exec.runOn, tryCatch, tryCatchThe, MonadExceptOf.tryCatch, ExceptT.tryCatch, ExceptT.mk,
    ExceptT.run, bind, StateT.bind]
  cases hx : x m with
  | mk ended m' => cases ended <;> rfl

@[simp] theorem Part.runOn_read (p : Part (Machine σ) A) (m : Machine σ) :
    Exec.runOn p.read m = (.ok (p.get m), m) := rfl

@[simp] theorem Part.runOn_change (p : Part (Machine σ) A) (f : A → B × A) (m : Machine σ) :
    Exec.runOn (p.change f) m = (.ok (f (p.get m)).1, p.set (f (p.get m)).2 m) := rfl

@[simp] theorem Part.runOn_update (p : Part (Machine σ) A) (f : A → A) (m : Machine σ) :
    Exec.runOn (p.update f) m = (.ok (), p.set (f (p.get m)) m) := rfl

@[simp] theorem TrapExec.runOn_onMachine (x : Exec σ α) (f : Frame) (m : Machine σ) :
    TrapExec.runOn (onMachine x) f m = (((Exec.runOn x m).1, f), (Exec.runOn x m).2) := rfl

@[simp] theorem TrapExec.runOn_pure (a : α) (f : Frame) (m : Machine σ) :
    TrapExec.runOn (pure a : TrapExec σ α) f m = ((.ok a, f), m) := rfl

@[simp] theorem TrapExec.runOn_throw (e : Stop) (f : Frame) (m : Machine σ) :
    TrapExec.runOn (throw e : TrapExec σ α) f m = ((.error e, f), m) := rfl

/-- A sequence goes on from where its first part left the frame and the machine, or stops with
it. -/
theorem TrapExec.runOn_bind (x : TrapExec σ α) (k : α → TrapExec σ β) (f : Frame) (m : Machine σ) :
    TrapExec.runOn (x >>= k) f m =
      match TrapExec.runOn x f m with
      | ((.ok a, f'), m') => TrapExec.runOn (k a) f' m'
      | ((.error e, f'), m') => ((.error e, f'), m') := by
  simp only [TrapExec.runOn, bind, ExceptT.bind, ExceptT.mk, ExceptT.run, StateT.bind, StateT.run]
  cases h : x f m with
  | mk r m' =>
    cases r with
    | mk ended f' =>
      cases ended with
      | ok a => rfl
      | error e => rfl

/-- A sequence that returned has gone through both of its parts. -/
theorem TrapExec.of_runOn_bind_eq_ok {x : TrapExec σ α} {k : α → TrapExec σ β} {f f' : Frame}
    {m m' : Machine σ} {b : β} (h : TrapExec.runOn (x >>= k) f m = ((.ok b, f'), m')) :
    ∃ a f₁ m₁, TrapExec.runOn x f m = ((.ok a, f₁), m₁) ∧
      TrapExec.runOn (k a) f₁ m₁ = ((.ok b, f'), m') := by
  rw [TrapExec.runOn_bind] at h
  split at h
  · rename_i a f₁ m₁ heq
    exact ⟨a, f₁, m₁, heq, h⟩
  · cases congrArg (·.1.1) h

theorem TrapExec.onMachine_eq_ok {x : Exec σ α} {f f' : Frame} {m m' : Machine σ} {a : α}
    (h : TrapExec.runOn (onMachine x) f m = ((.ok a, f'), m')) :
    f' = f ∧ Exec.runOn x m = (.ok a, m') := by
  rw [TrapExec.runOn_onMachine] at h
  exact ⟨(congrArg (·.1.2) h).symm, Prod.ext (congrArg (·.1.1) h) (congrArg (·.2) h)⟩

end Runs

variable {σ α : Type}

/-- The number of the running hart. -/
def hartId : Exec σ UInt32 := Machine.thePlatform.change Platform.hartId

def readClock : Exec σ UInt64 := Machine.thePlatform.change Platform.time

/-- Runs an action and then, however it ended, a change of the machine. -/
def Exec.finally (x : Exec σ α) (f : Machine σ → Machine σ) : Exec σ α :=
  ExceptT.mk do
    let r ← x.run
    modify f
    return r

/-- Runs `body` while the hart `core` holds a lock, and releases the lock however `body` ends.
A hart that holds the lock already runs `refused` instead. -/
def withLock (lock : Part (Machine σ) Spinlock) (core : UInt32) (body refused : Exec σ α) :
    Exec σ α := do
  match (← lock.read).acquire core with
  | .granted l =>
    lock.update fun _ => l
    body.finally fun m => lock.set (lock.get m).release m
  | .refused => refused
  | .waits => throw .waits

@[simp] theorem Exec.runOn_finally (x : Exec σ α) (f : Machine σ → Machine σ) (m : Machine σ) :
    Exec.runOn (x.finally f) m = ((Exec.runOn x m).1, f (Exec.runOn x m).2) := rfl

/-- A hart that finds the lock free runs the body under it and then gives it back. -/
theorem withLock_of_granted {lock : Part (Machine σ) Spinlock} {core : UInt32}
    {body refused : Exec σ α} {m : Machine σ} {l : Spinlock}
    (h : (lock.get m).acquire core = .granted l) :
    Exec.runOn (withLock lock core body refused) m =
      Exec.runOn (body.finally fun m => lock.set (lock.get m).release m) (lock.set l m) := by
  rw [withLock, Exec.runOn_bind_of_ok (Part.runOn_read lock m), h]
  exact Exec.runOn_bind_of_ok (Part.runOn_update lock (fun _ => l) m)

/-- A hart that holds the lock already is turned away. -/
theorem withLock_of_refused {lock : Part (Machine σ) Spinlock} {core : UInt32}
    {body refused : Exec σ α} {m : Machine σ} (h : (lock.get m).acquire core = .refused) :
    Exec.runOn (withLock lock core body refused) m = Exec.runOn refused m := by
  rw [withLock, Exec.runOn_bind_of_ok (Part.runOn_read lock m), h]

/-- Writes a terminated string to the console and tells the clients. -/
def puts [Client σ] (sink : Sink) (t : Text) : Exec σ Unit := do
  match sink with
  | .nowhere => return
  | .console =>
    let shown := Text.upToNul t
    Machine.thePlatform.update (·.write shown)
    Client.written shown

/-- Writes a terminated string without asking whether there is a console; fails if there is none. -/
def putsUnguarded [Client σ] (sink : Sink) (t : Text) : Exec σ Unit := do
  match sink with
  | .nowhere => throw .missing
  | .console => puts .console t

@[simp] theorem putsUnguarded_console [Client σ] (t : Text) :
    putsUnguarded (σ := σ) .console t = puts .console t := rfl

/-- Writes one byte without asking whether there is a console; fails if there is none. -/
def putByteUnguarded (sink : Sink) (c : UInt8) : Exec σ Unit := do
  match sink with
  | .nowhere => throw .missing
  | .console => Machine.thePlatform.update (·.write [c])

/-- Writes one line, cut to the 255 bytes of the line buffer, at once. -/
def putLine [Client σ] (sink : Sink) (pieces : List Text) : Exec σ Unit :=
  puts sink (pieces.flatten.take 255)

/-- Where output for the console of the platform goes. -/
def platformConsole : Exec σ Sink := do
  return if (← get).platform.interfaces.console then .console else .nowhere

/-- Gives up with a message on the console that names the place of the failure. -/
def panicAt (message file : Option Text) (line : Int) : Exec σ α := do
  Machine.thePlatform.update (·.write (Platform.panicLine message file line))
  throw (.panic message)

def panic (message : Text) : Exec σ α := panicAt (some message) none 0

/-- The next number for a registrar. -/
def newRegistrar : Exec σ Registrar :=
  modifyGet fun m => (m.nextRegistrar, { m with nextRegistrar := m.nextRegistrar + 1 })

/-- The next number for a context. -/
def newContextId : Exec σ ContextId :=
  modifyGet fun m => (m.nextContext, { m with nextContext := m.nextContext + 1 })

end Supervisor
