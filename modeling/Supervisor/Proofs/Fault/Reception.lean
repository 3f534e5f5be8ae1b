/-
How a report begins and how it ends.

Before an error is offered to anybody, its site notes that it was raised and looks at panic mode;
when it was offered to everybody, the outcome goes into the log and a line tells of it.  That is
all: neither the one nor the other runs a handler.

* `ErrorSite.runOn_receive_of_latched`, `ErrorSite.runOn_receive_of_fatal`,
  `ErrorSite.runOn_receive_of_plain` — the three ways in which an error is received;
* `ErrorSite.Received`, `ErrorSite.PutAside` — what the reception of an error makes of the machine;
* `Received.runOn_receive`, `PutAside.runOn_receive` — it comes to that, whatever the handlers are;
* `ErrorSite.Closed`, `Closed.runOn_conclude` — what the end of a report comes to, short of the end
  of the system;
* `receive_congr`, `conclude_congr` — of the client, only the observer of the console counts.
-/
import Supervisor.Proofs.Fault.Site

namespace Supervisor

variable {σ A : Type}

namespace ErrorSite

/-! ### The reception of an error -/

section

variable [Client σ]

/-- An error is noted before anything else depends on it. -/
theorem runOn_receive (s : ErrorSite σ) (e : SystemError) (m : Machine σ) :
    Exec.runOn (s.receive e) m = Exec.runOn (do
      if (s.table.get m).panicMode then
        s.record e .ignored
        putLine (s.sink m) ["[PANIC] ignoring error while in panic mode: ", e.line, "\n"]
        return none
      if e.isFatal then s.latch e (s.sink m)
      return some (s.sink m)) (s.raised e m) := by
  have hread : Exec.runOn s.table.read (s.raised e m) = (.ok (s.table.get m), s.raised e m) := by
    rw [Part.runOn_read, table_raised]
  rw [receive, Exec.runOn_bind_of_ok (s.runOn_console m),
    Exec.runOn_bind_of_ok (s.runOn_note _ _ _ m)]
  exact Exec.runOn_bind_of_ok hread

theorem runOn_receive_of_latched {s : ErrorSite σ} {m : Machine σ}
    (latched : (s.table.get m).panicMode = true) (e : SystemError) :
    Exec.runOn (s.receive e) m = Exec.runOn (do
      s.record e .ignored
      putLine (s.sink m) ["[PANIC] ignoring error while in panic mode: ", e.line, "\n"]
      return none) (s.raised e m) := by
  rw [runOn_receive, latched, if_pos rfl]

/-- The latch is set before anybody is told. -/
theorem runOn_receive_of_fatal {s : ErrorSite σ} {m : Machine σ}
    (clear : (s.table.get m).panicMode = false) {e : SystemError} (fatal : e.isFatal = true) :
    Exec.runOn (s.receive e) m = Exec.runOn (do
      s.announceLatch e (s.sink m)
      return some (s.sink m)) (s.latched (s.raised e m)) := by
  rw [runOn_receive, clear, if_neg Bool.false_ne_true, fatal, if_pos rfl, latch, bind_assoc,
    Exec.runOn_bind_of_ok (Part.runOn_update s.table _ _)]
  rfl

theorem runOn_receive_of_plain {s : ErrorSite σ} {m : Machine σ}
    (clear : (s.table.get m).panicMode = false) {e : SystemError} (plain : e.isFatal = false) :
    Exec.runOn (s.receive e) m = (.ok (some (s.sink m)), s.raised e m) := by
  rw [runOn_receive, clear, if_neg Bool.false_ne_true, plain, if_neg Bool.false_ne_true]
  rfl

/-- Between the two machines an error is received while panic mode is clear: it is noted, and if it
is fatal, panic mode is latched, which is noted and announced. -/
def Received (s : ErrorSite σ) (e : SystemError) (m m' : Machine σ) : Prop :=
  if e.isFatal then
    Printed (s.sink m) ["[FATAL] ", e.line, "\n"]
      (s.noted .panicLatched "fatal" e.code.raw.toUInt64 (s.latched (s.raised e m))) m'
  else m' = s.raised e m

/-- Between the two machines an error is put aside: it is noted, put into the log as ignored, and a
line tells of it. -/
def PutAside (s : ErrorSite σ) (e : SystemError) (m m' : Machine σ) : Prop :=
  Printed (s.sink m) ["[PANIC] ignoring error while in panic mode: ", e.line, "\n"]
    (s.recorded e .ignored (s.raised e m)) m'

theorem exists_received (console : ConsoleReturns σ) (s : ErrorSite σ) (e : SystemError)
    (m : Machine σ) : ∃ m', s.Received e m m' := by
  cases hfatal : e.isFatal with
  | true =>
    obtain ⟨m', hline⟩ := exists_printed console (s.sink m) ["[FATAL] ", e.line, "\n"]
      (s.noted .panicLatched "fatal" e.code.raw.toUInt64 (s.latched (s.raised e m)))
    exact ⟨m', by rwa [Received, hfatal, if_pos rfl]⟩
  | false => exact ⟨s.raised e m, by rw [Received, hfatal, if_neg Bool.false_ne_true]⟩

/-- To receive an error is not seen where neither the platform, the trace nor the latch are looked
at, nor anything that the observers of the console change. -/
theorem Received.keeps {view : Machine σ → A} {s : ErrorSite σ} {e : SystemError} {m m' : Machine σ}
    (h : s.Received e m m')
    (hplatform : ∀ p m, view (Machine.thePlatform.set p m) = view m)
    (htrace : ∀ t m, view (s.trace.set t m) = view m) (hlatch : ∀ m, view (s.latched m) = view m)
    (hwritten : ∀ text, Exec.Keeps (Client.written (σ := σ) text) view) : view m' = view m := by
  have hnoted (kind : EventKind) (name : Text) (value : UInt64) (m : Machine σ) :
      view (s.noted kind name value m) = view m :=
    s.view_noted (fun _ => hplatform _ _) htrace kind name value m
  rw [Received] at h
  split at h
  · rw [h.keeps (fun _ _ => hplatform _ _) hwritten, hnoted, hlatch, raised, hnoted]
  · rw [h, raised, hnoted]

end

/-! ### Of the client -/

section

variable {client other : Client σ} (same : other.written = client.written)

include same

theorem announceLatch_congr (s : ErrorSite σ) (e : SystemError) (sink : Sink) :
    @announceLatch σ other s e sink = @announceLatch σ client s e sink := by
  simp only [announceLatch, putLine_congr same]

/-- Of the client, only the observer of the console counts for the reception of an error. -/
theorem receive_congr (s : ErrorSite σ) (e : SystemError) :
    @receive σ other s e = @receive σ client s e := by
  simp only [receive, latch, announceLatch_congr same, putLine_congr same]

theorem printFrom_congr (log : Part (Machine σ) ErrorLog) (sink : Sink) (count i : Nat) :
    @ErrorLog.printFrom σ other log sink count i =
      @ErrorLog.printFrom σ client log sink count i := by
  induction count generalizing i with
  | zero => rfl
  | succ count ih => simp only [ErrorLog.printFrom, putLine_congr same, ih]

theorem printLog_congr (s : ErrorSite σ) (count : Nat) :
    @printLog σ other s count = @printLog σ client s count := by
  have hprint (sink : Sink) : @ErrorLog.print σ other s.log count sink =
      @ErrorLog.print σ client s.log count sink := by
    cases sink with
    | nowhere => rfl
    | console =>
      simp only [ErrorLog.print, putsUnguarded_console, puts_congr same, putLine_congr same,
        printFrom_congr same]
  simp only [printLog, hprint]

/-- Nor does anything else of it count for the end of a report, and of the system. -/
theorem conclude_congr (s : ErrorSite σ) (e : SystemError) (sink : Sink) (o : ErrorOutcome) :
    @conclude σ other s e sink o = @conclude σ client s e sink o := by
  simp only [conclude, halt, putLine_congr same, printLog_congr same]

end

section

variable [client : Client σ] {s : ErrorSite σ} {e : SystemError} {m m' : Machine σ}

/-- **What the reception of an error does** while panic mode is clear.  It runs no handler: with
other handlers, and the same observer of the console, it does the same. -/
theorem Received.runOn_receive (h : s.Received e m m')
    (clear : (s.table.get m).panicMode = false) :
    ∀ other : Client σ, other.written = client.written →
      Exec.runOn (@receive σ other s e) m = (.ok (some (s.sink m)), m') := by
  have hown : Exec.runOn (s.receive e) m = (.ok (some (s.sink m)), m') := by
    rw [Received] at h
    cases hfatal : e.isFatal with
    | false =>
      rw [hfatal, if_neg Bool.false_ne_true] at h
      rw [runOn_receive_of_plain clear hfatal, h]
    | true =>
      rw [hfatal, if_pos rfl] at h
      have hannounce : Exec.runOn (s.announceLatch e (s.sink m)) (s.latched (s.raised e m)) =
          (.ok (), m') := by
        rw [announceLatch, Exec.runOn_bind_of_ok (s.runOn_note _ _ _ _)]
        exact printed_iff.1 h
      rw [runOn_receive_of_fatal clear hfatal, Exec.runOn_bind_of_ok hannounce]
      rfl
  intro other same
  rw [receive_congr same, hown]

/-- **What the reception of an error does** while panic mode is latched.  It runs no handler then,
either. -/
theorem PutAside.runOn_receive (h : s.PutAside e m m')
    (latched : (s.table.get m).panicMode = true)
    (hrecord : Exec.runOn (s.record e .ignored) (s.raised e m) =
      (.ok (), s.recorded e .ignored (s.raised e m))) :
    ∀ other : Client σ, other.written = client.written →
      Exec.runOn (@receive σ other s e) m = (.ok none, m') := by
  have hown : Exec.runOn (s.receive e) m = (.ok none, m') := by
    rw [runOn_receive_of_latched latched, Exec.runOn_bind_of_ok hrecord,
      Exec.runOn_bind_of_ok (printed_iff.1 h)]
    rfl
  intro other same
  rw [receive_congr same, hown]

/-! ### The end of a report -/

/-- Between the two machines a report is closed: its outcome goes into the log, and a line tells of
it. -/
def Closed (s : ErrorSite σ) (e : SystemError) (sink : Sink) (o : ErrorOutcome)
    (m m' : Machine σ) : Prop :=
  Printed sink ["[ERROR] ", e.line, " -> ", o.name, "\n"] (s.recorded e o m) m'

/-- **What the end of a report does.**  It runs no handler, either, not even at the end of the
system. -/
theorem Closed.runOn_conclude {sink : Sink} {o : ErrorOutcome} (h : s.Closed e sink o m m')
    (hrecord : Exec.runOn (s.record e o) m = (.ok (), s.recorded e o m)) :
    ∀ other : Client σ, other.written = client.written →
      Exec.runOn (@conclude σ other s e sink o) m = Exec.runOn (do
        if e.isFatal && !o.helped then @halt σ client PUnit s e
        return o) m' := by
  have hown : Exec.runOn (s.conclude e sink o) m = Exec.runOn (do
      if e.isFatal && !o.helped then s.halt e
      return o) m' := by
    rw [conclude, Exec.runOn_bind_of_ok hrecord, Exec.runOn_bind_of_ok (printed_iff.1 h)]
  intro other same
  rw [conclude_congr same, hown]

end

end ErrorSite

end Supervisor
