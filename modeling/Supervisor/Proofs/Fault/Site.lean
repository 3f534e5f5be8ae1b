/-
What the operations of an error site do.

* `ErrorSite.runOn_locked_of_free`, `ErrorSite.runOn_locked_of_held` — an action under the lock of
  the site;
* `ErrorSite.StandsAfter` — the handlers of a site stand as some history leaves them;
* `ErrorSite.Tended` — the requests that a site grants meanwhile, which add to the history;
* `ErrorSite.noted`, `ErrorSite.recorded`, `ErrorSite.latched` — single steps of a report;
* `ErrorSite.sleepForGood_stops`, `ErrorSite.halt_stops` — nothing comes back from that.

Design notes: the lock of a site is reached by its own operations only, and each of them gives it
back.  What is asked of those who observe the console is therefore that they leave the lock as they
find it.
-/
import Supervisor.Proofs.Fault.History
import Supervisor.Proofs.Notice

namespace Supervisor

variable {σ : Type}

theorem sleepFor_stops {α : Type} (rounds : Nat) :
    Exec.Stops (sleepFor (σ := σ) (α := α) rounds) := by
  induction rounds with
  | zero => exact .throw .waits
  | succ rounds ih => exact .bind fun _ => .bind fun _ => ih

namespace ErrorSite

/-! ### Under the lock of a site -/

/-- Whether the lock of a site is taken. -/
def isTaken (s : ErrorSite σ) (m : Machine σ) : Bool := (s.lock.get m).flag

theorem lock_apart_platform (s : ErrorSite σ) : s.lock.Apart Machine.thePlatform :=
  fun p m => congrArg ErrorTable.lock (s.table_platform p m)

/-- The number that the running hart goes by at a site. -/
def hart (s : ErrorSite σ) (m : Machine σ) : UInt32 :=
  if (s.table.get m).attached then m.platform.hartId.1 else 0

/-- The machine once a site asked its hart for that number. -/
def asked (s : ErrorSite σ) (m : Machine σ) : Machine σ :=
  if (s.table.get m).attached then Machine.thePlatform.set m.platform.hartId.2 m else m

theorem runOn_currentHart (s : ErrorSite σ) (m : Machine σ) :
    Exec.runOn s.currentHart m = (.ok (s.hart m), s.asked m) := by
  rw [currentHart, Exec.runOn_bind_of_ok (Part.runOn_read s.table m), hart, asked]
  split <;> rfl

theorem asksHart_currentHart (s : ErrorSite σ) : AsksHart s.currentHart := by
  intro m
  rw [runOn_currentHart, asked]
  split
  · exact ⟨_, _, rfl⟩
  · exact ⟨_, m.platform, rfl⟩

@[simp] theorem table_asked (s : ErrorSite σ) (m : Machine σ) :
    s.table.get (s.asked m) = s.table.get m := by
  rw [asked]
  split
  · exact s.table_platform _ m
  · rfl

@[simp] theorem table_lock_set (s : ErrorSite σ) (l : Spinlock) (m : Machine σ) :
    s.table.get (s.lock.set l m) = { s.table.get m with lock := l } := s.table.get_set _ m

/-- A hart that finds the lock free runs the body under it and then gives it back. -/
theorem runOn_locked_of_free {α : Type} (s : ErrorSite σ) (body refused : Exec σ α) {m : Machine σ}
    (free : s.isTaken m = false) :
    let ended := Exec.runOn body (s.lock.set ⟨true, s.hart m⟩ (s.asked m))
    Exec.runOn (s.locked body refused) m = (ended.1, s.lock.set ⟨false, noOwner⟩ ended.2) := by
  have hflag : (s.lock.get (s.asked m)).flag = false := by
    show (s.table.get (s.asked m)).lock.flag = false
    rw [table_asked]
    exact free
  rw [locked, Exec.runOn_bind_of_ok (s.runOn_currentHart m),
    withLock_of_granted (Spinlock.acquire_of_free hflag _)]
  rfl

/-- A hart that holds the lock itself is turned away. -/
theorem runOn_locked_of_held {α : Type} (s : ErrorSite σ) (body refused : Exec σ α) {m : Machine σ}
    (held : (s.lock.get m).isHeldBy (s.hart m) = true) :
    Exec.runOn (s.locked body refused) m = Exec.runOn refused (s.asked m) := by
  have hlock : s.lock.get (s.asked m) = s.lock.get m := congrArg ErrorTable.lock (s.table_asked m)
  have hflag : (s.lock.get m).flag = true := (Bool.and_eq_true_iff.1 held).1
  have hrefusal : (s.lock.get (s.asked m)).acquire (s.hart m) = .refused := by
    rw [hlock, Spinlock.acquire, Spinlock.tryAcquire, if_pos hflag, held]
    rfl
  rw [locked, Exec.runOn_bind_of_ok (s.runOn_currentHart m), withLock_of_refused hrefusal]

/-! ### Histories of a site -/

/-- The handlers of a site stand as a history of registrations and removals leaves them. -/
def StandsAfter (s : ErrorSite σ) (m : Machine σ) (history : List ErrorTable.Change) : Prop :=
  (s.table.get m).slots = (ErrorTable.run {} history).slots

/-- A request for a change of the handlers. -/
def request (s : ErrorSite σ) : ErrorTable.Change → Exec σ RegistryStatus
  | .register p => s.register p
  | .unregister text => s.unregister text

/-- What becomes of the handlers meanwhile: requests are made while the lock is free, one after the
other, and between them anything happens that leaves the handlers alone. -/
inductive Tended (s : ErrorSite σ) (m : Machine σ) : List ErrorTable.Change → Machine σ → Prop
  | nothing : Tended s m [] m
  | aside {changes : List ErrorTable.Change} {m₁ m₂ : Machine σ} (h : Tended s m changes m₁)
      (same : (s.table.get m₂).slots = (s.table.get m₁).slots) : Tended s m changes m₂
  | request {changes : List ErrorTable.Change} {m₁ : Machine σ} (h : Tended s m changes m₁)
      (free : s.isTaken m₁ = false) (c : ErrorTable.Change) :
      Tended s m (changes ++ [c]) (Exec.runOn (s.request c) m₁).2

/-- A change made under the free lock of a site is the change of its slots. -/
theorem slots_locked_change (s : ErrorSite σ) {m : Machine σ} (free : s.isTaken m = false)
    {c : ErrorTable.Change} {f : ErrorTable → RegistryStatus × ErrorTable}
    (hf : ∀ t, (f t).2 = t.after c) (refusal : RegistryStatus) :
    (s.table.get (Exec.runOn (s.locked (s.table.change f) (return refusal)) m).2).slots =
      ((s.table.get m).after c).slots := by
  rw [s.runOn_locked_of_free _ _ free, Part.runOn_change, table_lock_set, Part.get_set, hf]
  -- the change finds the table of `m` with its lock taken, which it does not look at
  refine ErrorTable.slots_after ?_ c
  rw [table_lock_set, table_asked]

/-- A request that finds the lock free is one more change of the history. -/
theorem StandsAfter.request {s : ErrorSite σ} {m : Machine σ} {history : List ErrorTable.Change}
    (h : s.StandsAfter m history) (free : s.isTaken m = false) (c : ErrorTable.Change) :
    s.StandsAfter (Exec.runOn (s.request c) m).2 (history ++ [c]) := by
  have hslots : (s.table.get (Exec.runOn (s.request c) m).2).slots =
      ((s.table.get m).after c).slots := by
    cases c with
    | unregister text => exact s.slots_locked_change free (fun _ => rfl) .locked
    | register p =>
      show (s.table.get (Exec.runOn (s.register p) m).2).slots = ((s.table.get m).slots.add p).2
      rw [ErrorSite.register]
      split
      · -- what lacks its handler or its name is refused without a look at the table
        rename_i hlacks
        have hincomplete : Tabled.complete p = false := by
          show (p.handler.isSome && p.description.isSome) = false
          rw [Bool.and_eq_false_iff, Option.isSome_eq_false_iff, Option.isSome_eq_false_iff,
            ← Bool.or_eq_true]
          exact hlacks
        rw [SlotTable.add, hincomplete, Bool.not_false, if_pos rfl]
        rfl
      · exact s.slots_locked_change (c := .register p) free (fun _ => rfl) .locked
  rw [StandsAfter, hslots, ErrorTable.run_append]
  exact ErrorTable.slots_after h c

/-- Requests that are granted meanwhile add to the history. -/
theorem StandsAfter.tended {s : ErrorSite σ} {m m' : Machine σ}
    {history changes : List ErrorTable.Change} (h : s.StandsAfter m history)
    (ht : s.Tended m changes m') : s.StandsAfter m' (history ++ changes) := by
  induction ht with
  | nothing =>
    rw [List.append_nil]
    exact h
  | aside _ same ih => exact same.trans ih
  | request _ free c ih =>
    rw [← List.append_assoc]
    exact ih.request free c

/-! ### The steps of a report -/

/-- Where output of a site goes. -/
def sink (s : ErrorSite σ) (m : Machine σ) : Sink :=
  if (s.table.get m).attached && m.platform.interfaces.console then .console else .nowhere

theorem runOn_console (s : ErrorSite σ) (m : Machine σ) :
    Exec.runOn s.console m = (.ok (s.sink m), m) := by
  rw [ErrorSite.console, Exec.runOn_bind_of_ok (Part.runOn_read s.table m), sink]
  cases (s.table.get m).attached <;> rfl

/-- The machine once a site has taken an event into its trace, if it traces errors. -/
def noted (s : ErrorSite σ) (kind : EventKind) (name : Text) (value : UInt64) (m : Machine σ) :
    Machine σ :=
  if (s.table.get m).traced then m.noted s.trace kind name value else m

theorem runOn_note (s : ErrorSite σ) (kind : EventKind) (name : Text) (value : UInt64)
    (m : Machine σ) :
    Exec.runOn (s.note kind name value) m = (.ok (), s.noted kind name value m) := by
  rw [note, Exec.runOn_bind_of_ok (Part.runOn_read s.table m), noted]
  split
  · rw [Exec.runOn_bind_of_ok (runOn_traceEvent _ _ _ _ m)]
    rfl
  · rfl

/-- To trace an error is not seen where neither the clock nor the trace is looked at. -/
theorem view_noted {A : Type} {view : Machine σ → A} (s : ErrorSite σ)
    (hclock : ∀ m, view (Machine.thePlatform.set m.platform.time.2 m) = view m)
    (htrace : ∀ t m, view (s.trace.set t m) = view m) (kind : EventKind) (name : Text)
    (value : UInt64) (m : Machine σ) : view (s.noted kind name value m) = view m := by
  rw [noted]
  split
  · exact Machine.view_noted hclock htrace kind name value m
  · rfl

/-- To trace an error leaves the table as it is. -/
@[simp] theorem table_noted (s : ErrorSite σ) (kind : EventKind) (name : Text) (value : UInt64)
    (m : Machine σ) : s.table.get (s.noted kind name value m) = s.table.get m :=
  s.view_noted (fun _ => s.table_platform _ _) s.table_trace kind name value m

/-- The machine once an error was put into the log.  A hart that holds the lock already leaves the
log alone. -/
def recorded (s : ErrorSite σ) (e : SystemError) (o : ErrorOutcome) (m : Machine σ) : Machine σ :=
  if s.isTaken m then s.asked m
  else s.table.set { s.table.get m with
    lock := ⟨false, noOwner⟩, log := (s.log.get m).push ⟨e, o.helped, o⟩ } (s.asked m)

/-- A change of the log under the lock is made if nobody holds the lock. -/
theorem runOn_locked_update_of_free (s : ErrorSite σ) (f : ErrorLog → ErrorLog)
    (refused : Exec σ Unit) {m : Machine σ} (free : s.isTaken m = false) :
    Exec.runOn (s.locked (s.log.update f) refused) m = (.ok (), s.table.set { s.table.get m with
      lock := ⟨false, noOwner⟩, log := f (s.log.get m) } (s.asked m)) := by
  rw [s.runOn_locked_of_free _ _ free]
  simp only [Part.runOn_update, lock, log, Part.comp, Part.get_set, Part.set_set, table_asked]

theorem runOn_record_of_free (s : ErrorSite σ) (e : SystemError) (o : ErrorOutcome) {m : Machine σ}
    (free : s.isTaken m = false) : Exec.runOn (s.record e o) m = (.ok (), s.recorded e o m) := by
  rw [record, s.runOn_locked_update_of_free _ _ free, recorded, if_neg (ne_true_of_eq_false free)]

theorem runOn_record_of_held (s : ErrorSite σ) (e : SystemError) (o : ErrorOutcome) {m : Machine σ}
    (held : (s.lock.get m).isHeldBy (s.hart m) = true) :
    Exec.runOn (s.record e o) m = (.ok (), s.recorded e o m) := by
  have htaken : s.isTaken m = true := (Bool.and_eq_true_iff.1 held).1
  rw [record, s.runOn_locked_of_held _ _ held, recorded, if_pos htaken]
  rfl

/-- The machine with panic mode latched. -/
def latched (s : ErrorSite σ) (m : Machine σ) : Machine σ :=
  s.table.set { s.table.get m with panicMode := true } m

/-- The machine once the site has noted that an error was raised. -/
def raised (s : ErrorSite σ) (e : SystemError) (m : Machine σ) : Machine σ :=
  s.noted .errorRaised e.source.name e.code.raw.toUInt64 m

@[simp] theorem table_raised (s : ErrorSite σ) (e : SystemError) (m : Machine σ) :
    s.table.get (s.raised e m) = s.table.get m := s.table_noted _ _ _ m

/-! ### The end of the system -/

theorem sleepForGood_stops {α : Type} (s : ErrorSite σ) :
    Exec.Stops (s.sleepForGood (α := α)) := by
  refine .bind fun t => .ite (.bind fun m => ?_) (.throw .waits)
  split
  · exact sleepFor_stops _
  · exact .throw .waits

/-- To sleep is not seen where the platform is not looked at. -/
theorem sleepForGood_keeps {α A : Type} {view : Machine σ → A} (s : ErrorSite σ)
    (hhart : Exec.Keeps hartId view)
    (hidle : Exec.Keeps (Machine.thePlatform.change Platform.idle) view) :
    Exec.Keeps (s.sleepForGood (α := α)) view := by
  have hsleepFor (rounds : Nat) : Exec.Keeps (sleepFor (α := α) rounds) view := by
    induction rounds with
    | zero => exact .throw _
    | succ rounds ih =>
      have hsleep : Exec.Keeps sleep view := .bind hidle fun ended => .ite (.throw _) (.pure ())
      exact .bind hhart fun _ => .bind hsleep fun _ => ih
  refine .bind (.read _) fun t => .ite (.bind .get fun m => ?_) (.throw _)
  split
  · exact hsleepFor _
  · exact .throw _

/-- Nothing comes back from the end of the system. -/
theorem halt_stops [Client σ] {α : Type} (s : ErrorSite σ) (e : SystemError) :
    Exec.Stops (s.halt (α := α) e) := by
  -- whether or not the firmware is asked to shut down, the hart ends up asleep or waiting
  refine .bind fun sink => .bind fun _ => .bind fun _ => .bind fun reachable => .ite ?_ ?_
  · exact .bind fun _ => s.sleepForGood_stops
  · exact s.sleepForGood_stops

end ErrorSite

end Supervisor
