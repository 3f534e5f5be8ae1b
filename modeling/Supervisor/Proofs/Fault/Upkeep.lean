/-
What an error site does by itself.

Apart from calling handlers, a site writes to the console, reads the clock, records events, and
changes its log under its lock.  An invariant that bears these steps is upheld by everything that a
site does by itself (`ErrorSite.Upkeep`).  Some invariants are about the log, and bear the other
steps only (`ErrorSite.Bears`).

* `putLine_upholds`, `printLog_upholds` — what is written;
* `Bears.note`, `Bears.takers`, `Upkeep.record` — the steps of a report;
* `ErrorSite.Unseen` — a view in which none of this is seen, and `Unseen.offer`, `Unseen.halt`,
  what handlers and the end of the system do to an invariant of it;
* `ErrorSite.Passes` — the calling hart need not wait for the lock;
* `ErrorSite.Calm` — that, and how the site and the platform stand;
* `upkeep_calm` — a site whose lock is free, or held by the calling hart itself, gets along.
-/
import Supervisor.Proofs.Fault.Site

namespace Supervisor

variable {σ α : Type}

theorem ErrorSite.console_upholds (s : ErrorSite σ) (I K : Machine σ → Prop) :
    Exec.Upholds s.console I K :=
  .bind (.read _) fun _ => .ite (.bind .get fun _ => .pure _) (.pure _)

section

variable [Client σ] {I K : Machine σ → Prop}

/-! ### What is written -/

section

variable (written : ∀ text, Exec.Upholds (Client.written (σ := σ) text) I K)
  (write : ∀ (t : Text) (m : Machine σ), I m → I (Machine.thePlatform.set (m.platform.write t) m))

include written write

theorem puts_upholds (sink : Sink) (t : Text) : Exec.Upholds (puts (σ := σ) sink t) I K := by
  cases sink with
  | nowhere => exact .pure ()
  | console => exact .bind (.update fun m => write _ m) fun _ => written _

theorem putLine_upholds (sink : Sink) (pieces : List Text) :
    Exec.Upholds (putLine (σ := σ) sink pieces) I K := puts_upholds written write sink _

theorem printFrom_upholds (log : Part (Machine σ) ErrorLog) (sink : Sink) (count i : Nat) :
    Exec.Upholds (ErrorLog.printFrom log sink count i) I K := by
  induction count generalizing i with
  | zero => exact .pure ()
  | succ count ih =>
    refine .bind (.read log) fun l => ?_
    split
    · exact .pure ()
    · exact .bind (putLine_upholds written write _ _) fun _ => ih (i + 1)

/-- To print the log under the lock upholds what its lines and the lock do. -/
theorem ErrorSite.printLog_upholds {s : ErrorSite σ}
    (locked : ∀ {body refused : Exec σ Unit}, Exec.Upholds body I K → Exec.Upholds refused I K →
      Exec.Upholds (s.locked body refused) I K) (count : Nat) :
    Exec.Upholds (s.printLog count) I K := by
  have hprint (sink : Sink) : Exec.Upholds (ErrorLog.print s.log count sink) I K := by
    cases sink with
    | nowhere => exact .pure ()
    | console =>
      exact .bind (.read _) fun l => .ite (puts_upholds written write .console _)
        (.bind (putLine_upholds written write _ _) fun _ => printFrom_upholds written write _ _ _ _)
  exact locked (.bind (s.console_upholds I K) hprint) (.pure ())

end

/-! ### The steps of a site -/

/-- An invariant bears what a site does by itself, apart from changes of its log. -/
structure ErrorSite.Bears (s : ErrorSite σ) (I K : Machine σ → Prop) : Prop where
  written (text : Text) : Exec.Upholds (Client.written (σ := σ) text) I K
  write (t : Text) (m : Machine σ) : I m → I (Machine.thePlatform.set (m.platform.write t) m)
  clock (m : Machine σ) : I m → I (Machine.thePlatform.set m.platform.time.2 m)
  trace (t : Trace) (m : Machine σ) : I m → I (s.trace.set t m)
  locked {β : Type} {body refused : Exec σ β} : Exec.Upholds body I K →
    Exec.Upholds refused I K → Exec.Upholds (s.locked body refused) I K

/-- An invariant bears what a site does by itself. -/
structure ErrorSite.Upkeep (s : ErrorSite σ) (I K : Machine σ → Prop) : Prop
    extends s.Bears I K where
  log (l : ErrorLog) (m : Machine σ) : I m → I (s.log.set l m)

namespace ErrorSite.Bears

variable {s : ErrorSite σ} (h : s.Bears I K)

include h

theorem line (sink : Sink) (pieces : List Text) : Exec.Upholds (putLine (σ := σ) sink pieces) I K :=
  putLine_upholds h.written h.write sink pieces

theorem note (kind : EventKind) (name : Text) (value : UInt64) :
    Exec.Upholds (s.note kind name value) I K := by
  have hrecord (now : UInt64) : Exec.Upholds (do
      s.trace.update (·.record now kind name value)
      return true) I K := .bind (.update fun m => h.trace _ m) fun _ => .pure true
  have hevent : Exec.Upholds (traceEvent s.trace kind name value) I K :=
    .bind (.read _) fun t => .ite
      (.ite (.bind (.change h.clock) hrecord) (.bind (.pure 0) hrecord)) (.pure false)
  exact .bind (.read _) fun t => .ite (.bind hevent fun _ => .pure ()) (.pure ())

theorem announceLatch (e : SystemError) (sink : Sink) :
    Exec.Upholds (s.announceLatch e sink) I K := .bind (h.note _ _ _) fun _ => h.line _ _

theorem takers (e : SystemError) (sink : Sink) : Exec.Upholds (s.takers e sink) I K :=
  h.locked (.bind (.read _) fun _ => .pure _) (.bind (h.line _ _) fun _ => .pure [])

theorem printLog (count : Nat) : Exec.Upholds (s.printLog count) I K :=
  printLog_upholds h.written h.write h.locked count

end ErrorSite.Bears

theorem ErrorSite.Upkeep.record {s : ErrorSite σ} (h : s.Upkeep I K) (e : SystemError)
    (o : ErrorOutcome) : Exec.Upholds (s.record e o) I K :=
  h.locked (.update fun m => h.log _ m) (.pure ())

end

/-! ### Out of sight -/

/-- A view in which nothing is seen of what a site does by itself, apart from its log and its panic
latch. -/
structure ErrorSite.Unseen {A : Type} (s : ErrorSite σ) (view : Machine σ → A) : Prop where
  platform (p : Platform) (m : Machine σ) : view (Machine.thePlatform.set p m) = view m
  trace (t : Trace) (m : Machine σ) : view (s.trace.set t m) = view m
  lock (l : Spinlock) (m : Machine σ) : view (s.lock.set l m) = view m
  systemLock (l : Spinlock) (m : Machine σ) : view (ErrorSite.system.lock.set l m) = view m

namespace ErrorSite.Unseen

variable {A β : Type} {s : ErrorSite σ} {view : Machine σ → A} {I : Machine σ → Prop}

section

variable (h : s.Unseen view) (hI : ∀ m m', view m' = view m → I m → I m')

include h hI

/-- Under a lock that is out of sight, a body that upholds the invariant does so as well. -/
theorem upholds_locked {site : ErrorSite σ} (hlock : ∀ l m, view (site.lock.set l m) = view m)
    {body refused : Exec σ β} (hbody : Exec.Upholds body I I)
    (hrefused : Exec.Upholds refused I I) : Exec.Upholds (site.locked body refused) I I := by
  have hhart : Exec.Keeps site.currentHart view :=
    .bind (.read _) fun _ => .ite (.change h.platform _) (.pure 0)
  exact .bind (.of_keeps hhart hI) fun core =>
    .withLock (fun l m => hI _ _ (hlock l m)) hbody hrefused core

variable [Client σ] (written : ∀ text, Exec.Upholds (Client.written (σ := σ) text) I I)

include written

theorem bears : s.Bears I I where
  written := written
  write _ m := hI _ _ (h.platform _ m)
  clock m := hI _ _ (h.platform _ m)
  trace t m := hI _ _ (h.trace t m)
  locked hbody hrefused := h.upholds_locked hI h.lock hbody hrefused

/-- What the machine does about errors by itself. -/
theorem run (handlers : ∀ n e, Exec.Upholds (Client.errorHandler (σ := σ) n e) I I)
    (x : ErrorHandler) (e : SystemError) : Exec.Upholds (x.run e) I I := by
  have hbears := h.bears hI written
  have hline (sink : Sink) (pieces : List Text) (o : ErrorOutcome) : Exec.Upholds (do
      putLine sink pieces
      return o) I I := .bind (hbears.line sink pieces) fun _ => .pure o
  have hlog : Exec.Upholds (ErrorSite.system.printLog 5) I I :=
    printLog_upholds written hbears.write
      (fun hbody hrefused => h.upholds_locked hI h.systemLock hbody hrefused) 5
  refine .bind (.bind .get fun _ => .pure _) fun sink => ?_
  cases x with
  | memory => exact .ite (hline _ _ _) (.ite (hline _ _ _) (.ite (hline _ _ _) (hline _ _ _)))
  | interrupt => exact hline _ _ _
  | process => exact hline _ _ _
  | syscall => exact hline _ _ _
  | fatalDiagnostics =>
    exact .bind .get fun _ => .bind (hbears.line _ _) fun _ => .bind hlog fun _ => .pure _
  | client n => exact handlers n e

theorem offer (handlers : ∀ n e, Exec.Upholds (Client.errorHandler (σ := σ) n e) I I)
    (e : SystemError) (entries : List ErrorEntry) (before : ErrorOutcome) :
    Exec.Upholds (ErrorSite.offer e entries before) I I := by
  induction entries generalizing before with
  | nil => exact .pure before
  | cons x entries ih =>
    refine .bind (h.run hI written handlers x.handler e) fun o => ?_
    cases o with
    | handled => exact .pure _
    | _ => exact ih _

/-- The end of the system. -/
theorem halt (e : SystemError) : Exec.Upholds (s.halt (α := β) e) I I := by
  have hbears := h.bears hI written
  have hsleep : Exec.Upholds (s.sleepForGood (α := β)) I I :=
    .of_keeps (s.sleepForGood_keeps (.change h.platform _) (.change h.platform _)) hI
  have hshutDown : Exec.Upholds (shutDown (σ := σ) (α := PUnit) 1) I I :=
    .of_keeps (.bind (.update h.platform _) fun _ => .throw _) hI
  refine .bind (s.console_upholds _ _) fun sink => .bind (hbears.line _ _) fun _ =>
    .bind (hbears.printLog _) fun _ => .bind (.bind (.read _) fun _ => .bind .get fun _ => .pure _)
      fun reachable => .ite (.bind hshutDown fun _ => hsleep) hsleep

end

end ErrorSite.Unseen

/-! ### Without waiting -/

/-- How a site and the platform stand, as far as the end of a report depends on it. -/
structure Standing where
  /-- Whether the site knows the platform. -/
  attached : Bool
  /-- Whether the platform has firmware. -/
  firmware : Bool
  /-- How often the firmware was asked to shut down or to restart. -/
  shutdowns : Nat
  /-- The number of the running hart, as the site sees it. -/
  hart : UInt32

namespace ErrorSite

variable {s : ErrorSite σ} {v : Standing} {m : Machine σ}

/-- How things stand on a machine. -/
def standing (s : ErrorSite σ) (m : Machine σ) : Standing where
  attached := (s.table.get m).attached
  firmware := m.platform.interfaces.firmware
  shutdowns := m.platform.shutdowns
  hart := if (s.table.get m).attached then m.platform.hartId.1 else 0

/-- The running hart need not wait for the lock: either nobody holds it, or the hart itself. -/
def Passes (s : ErrorSite σ) (m : Machine σ) : Prop :=
  s.isTaken m = true → (s.lock.get m).owner = (s.standing m).hart

/-- The running hart need not wait for the lock, and this is how things stand. -/
structure Calm (s : ErrorSite σ) (v : Standing) (m : Machine σ) : Prop where
  passes : s.Passes m
  standing : s.standing m = v

theorem Calm.set_platform (h : s.Calm v m) {p : Platform}
    (hfirmware : p.interfaces.firmware = m.platform.interfaces.firmware)
    (hshutdowns : p.shutdowns = m.platform.shutdowns) (hhart : p.hartId.1 = m.platform.hartId.1) :
    s.Calm v (Machine.thePlatform.set p m) := by
  have htable : s.table.get (Machine.thePlatform.set p m) = s.table.get m := s.table_platform p m
  have hstanding : s.standing (Machine.thePlatform.set p m) = s.standing m := by
    rw [ErrorSite.standing, ErrorSite.standing, htable]
    show Standing.mk _ p.interfaces.firmware p.shutdowns (if _ then p.hartId.1 else 0) = _
    rw [hfirmware, hshutdowns, hhart]
  refine ⟨?_, hstanding.trans h.standing⟩
  rw [Passes, hstanding, isTaken, s.lock_apart_platform p m]
  exact h.passes

theorem Calm.set_table (h : s.Calm v m) {t : ErrorTable}
    (hattached : t.attached = (s.table.get m).attached)
    (hlock : t.lock.flag = true → t.lock.owner = v.hart) : s.Calm v (s.table.set t m) := by
  have htable : s.table.get (s.table.set t m) = t := s.table.get_set t m
  have hplatform : (s.table.set t m).platform = m.platform := s.platform_table t m
  have hstanding : s.standing (s.table.set t m) = v := by
    rw [← h.standing, ErrorSite.standing, ErrorSite.standing, htable, hplatform, hattached]
  refine ⟨?_, hstanding⟩
  rw [Passes, hstanding]
  show (s.table.get (s.table.set t m)).lock.flag = true →
    (s.table.get (s.table.set t m)).lock.owner = v.hart
  rw [htable]
  exact hlock

theorem Calm.lock_owner (h : s.Calm v m) (htaken : (s.table.get m).lock.flag = true) :
    (s.table.get m).lock.owner = v.hart := by
  rw [← h.standing]
  exact h.passes htaken

theorem Calm.set_trace (h : s.Calm v m) (t : Trace) : s.Calm v (s.trace.set t m) := by
  have htable : s.table.get (s.trace.set t m) = s.table.get m := s.table_trace t m
  have hplatform : (s.trace.set t m).platform = m.platform := s.platform_trace t m
  have hstanding : s.standing (s.trace.set t m) = s.standing m := by
    rw [ErrorSite.standing, ErrorSite.standing, htable, hplatform]
  refine ⟨?_, hstanding.trans h.standing⟩
  rw [Passes, hstanding]
  show (s.table.get (s.trace.set t m)).lock.flag = true →
    (s.table.get (s.trace.set t m)).lock.owner = _
  rw [htable]
  exact h.passes

/-- To ask for the number of the hart is calm. -/
theorem Calm.asked (h : s.Calm v m) : s.Calm v (s.asked m) := by
  rw [ErrorSite.asked]
  split
  · obtain ⟨hinterfaces, hshutdowns, hagain⟩ := m.platform.hartId_snd
    exact h.set_platform (by rw [hinterfaces]) hshutdowns hagain
  · exact h

/-- A lock that is taken is held by the running hart itself. -/
theorem Passes.isHeldBy (h : s.Passes m) (htaken : s.isTaken m = true) :
    (s.lock.get m).isHeldBy (s.hart m) = true :=
  Bool.and_eq_true_iff.2 ⟨htaken, beq_iff_eq.2 (h htaken)⟩

/-- A hart that need not wait puts the error into the log, or leaves the log alone. -/
theorem Passes.runOn_record (h : s.Passes m) (e : SystemError) (o : ErrorOutcome) :
    Exec.runOn (s.record e o) m = (.ok (), s.recorded e o m) := by
  cases htaken : s.isTaken m with
  | false => exact s.runOn_record_of_free e o htaken
  | true => exact s.runOn_record_of_held e o (h.isHeldBy htaken)

theorem Calm.noted (h : s.Calm v m) (kind : EventKind) (name : Text) (value : UInt64) :
    s.Calm v (s.noted kind name value m) := by
  have htimed : s.Calm v (m.timed s.trace).2 := by
    rw [Machine.timed]
    split
    · exact h.set_platform rfl rfl (Platform.hartId_fst_congr rfl rfl rfl)
    · exact h
  rw [ErrorSite.noted, Machine.noted]
  split
  · split
    · exact htimed.set_trace _
    · exact h
  · exact h

theorem Calm.recorded (h : s.Calm v m) (e : SystemError) (o : ErrorOutcome) :
    s.Calm v (s.recorded e o m) := by
  rw [ErrorSite.recorded]
  split
  · exact h.asked
  · exact h.asked.set_table (by rw [table_asked]) fun hflag => Bool.noConfusion hflag

theorem Calm.latched (h : s.Calm v m) : s.Calm v (s.latched m) := h.set_table rfl h.lock_owner

/-- Under the lock things are calm if the body keeps them so, whether the lock was free or held by
the running hart. -/
theorem upholds_locked {body refused : Exec σ α}
    (hbody : Exec.Upholds body (s.Calm v) fun _ => False)
    (hrefused : Exec.Upholds refused (s.Calm v) fun _ => False) :
    Exec.Upholds (s.locked body refused) (s.Calm v) fun _ => False := by
  intro m hm
  cases htaken : s.isTaken m with
  | false =>
    have hheld : s.Calm v (s.lock.set ⟨true, s.hart m⟩ (s.asked m)) :=
      hm.asked.set_table rfl fun _ => congrArg Standing.hart hm.standing
    obtain ⟨a, m', hrun, hm'⟩ := hbody.returns hheld
    rw [s.runOn_locked_of_free _ _ htaken, hrun]
    -- whatever the body leaves, the lock is free again after it
    exact hm'.set_table rfl fun hflag => Bool.noConfusion hflag
  | true =>
    rw [s.runOn_locked_of_held _ _ (hm.passes.isHeldBy htaken)]
    exact hrefused _ hm.asked

/-- Those who observe the console return and keep things calm. -/
def Quiet [Client σ] (s : ErrorSite σ) : Prop :=
  ∀ v text, Exec.Upholds (Client.written (σ := σ) text) (s.Calm v) fun _ => False

/-- A site that need not wait for its lock gets along. -/
theorem upkeep_calm [Client σ] (quiet : s.Quiet) (v : Standing) :
    s.Upkeep (s.Calm v) fun _ => False where
  written := quiet v
  write _ _ h := h.set_platform rfl rfl (Platform.hartId_fst_congr rfl rfl rfl)
  clock _ h := h.set_platform rfl rfl (Platform.hartId_fst_congr rfl rfl rfl)
  trace t _ h := h.set_trace t
  log _ _ h := h.set_table rfl h.lock_owner
  locked hbody hrefused := upholds_locked hbody hrefused

end ErrorSite

end Supervisor
