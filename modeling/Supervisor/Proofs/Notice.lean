/-
What is noted and what is printed.

Much of what the machine does about traps and errors is to tell of them: it takes an event into a
trace, or it writes a line to the console.  Here both are written down as what becomes of the
machine, so that it can be said of a whole action what it changes.

* `Machine.noted` — the machine once an event was taken into a trace;
* `Printed` — a line is printed, and those who observe the console do about it what they like;
* `printed_iff` — that is all that printing does;
* `puts_congr`, `putLine_congr` — of the client, only the observer of the console counts for it;
* `runOn_panic` — what becomes of a run that gives up.
-/
import Supervisor.Proofs.Action

namespace Supervisor

variable {σ α A : Type}

/-! ### Events -/

/-- The time that a trace would give an event, and the machine once the clock was read for it, if
the trace has one. -/
def Machine.timed (trace : Part (Machine σ) Trace) (m : Machine σ) : UInt64 × Machine σ :=
  if (trace.get m).clocked then (m.platform.time.1, thePlatform.set m.platform.time.2 m) else (0, m)

/-- The machine once an event was taken into a trace, if that is enabled. -/
def Machine.noted (trace : Part (Machine σ) Trace) (kind : EventKind) (name : Text) (value : UInt64)
    (m : Machine σ) : Machine σ :=
  if (trace.get m).enabled then
    trace.set ((trace.get (m.timed trace).2).record (m.timed trace).1 kind name value)
      (m.timed trace).2
  else m

/-- To take an event does nothing else, and tells whether the trace is enabled. -/
theorem runOn_traceEvent (trace : Part (Machine σ) Trace) (kind : EventKind) (name : Text)
    (value : UInt64) (m : Machine σ) :
    Exec.runOn (traceEvent trace kind name value) m =
      (.ok (trace.get m).enabled, m.noted trace kind name value) := by
  rw [traceEvent, Exec.runOn_bind_of_ok (Part.runOn_read trace m), Machine.noted, Machine.timed]
  cases (trace.get m).enabled with
  | false => rfl
  | true =>
    cases (trace.get m).clocked with
    | false => rfl
    | true => rfl

theorem System.runOn_note (kind : EventKind) (name : Text) (value : UInt64) (m : Machine σ) :
    Exec.runOn (System.note kind name value) m =
      (.ok (), m.noted Machine.theTrace kind name value) := by
  rw [note, Exec.runOn_bind_of_ok (runOn_traceEvent _ _ _ _ m)]
  rfl

/-- An event is not seen where neither the clock nor the trace is looked at. -/
theorem Machine.view_noted {view : Machine σ → A} {trace : Part (Machine σ) Trace}
    (hclock : ∀ m, view (thePlatform.set m.platform.time.2 m) = view m)
    (htrace : ∀ t m, view (trace.set t m) = view m) (kind : EventKind) (name : Text)
    (value : UInt64) (m : Machine σ) : view (m.noted trace kind name value) = view m :=
  (traceEvent_keeps hclock htrace kind name value).of_runOn
    (runOn_traceEvent trace kind name value m)

/-! ### Lines -/

/-- Where output of the trap system goes. -/
def Machine.sink (m : Machine σ) : Sink :=
  if m.system.bound && m.platform.interfaces.console then .console else .nowhere

theorem System.runOn_console (m : Machine σ) : Exec.runOn System.console m = (.ok m.sink, m) := rfl

theorem Machine.sink_congr {m m' : Machine σ} (hbound : m'.system.bound = m.system.bound)
    (hinterfaces : m'.platform.interfaces = m.platform.interfaces) : m'.sink = m.sink := by
  rw [sink, sink, hbound, hinterfaces]

/-- Some pieces as they appear on the console: cut to the line buffer, and ended by a terminator
among them. -/
def lineOf (pieces : List Text) : Text := Text.upToNul (pieces.flatten.take 255)

/-- Between the two machines a line is printed.  Where there is no console nothing happens; else the
line is written to it, and then those who observe the console have their turn. -/
def Printed [Client σ] (sink : Sink) (pieces : List Text) (m m' : Machine σ) : Prop :=
  match sink with
  | .nowhere => m' = m
  | .console => Exec.runOn (Client.written (lineOf pieces))
      (Machine.thePlatform.set (m.platform.write (lineOf pieces)) m) = (.ok (), m')

/-- To print a line does nothing else. -/
theorem printed_iff [Client σ] {sink : Sink} {pieces : List Text} {m m' : Machine σ} :
    Printed sink pieces m m' ↔ Exec.runOn (putLine sink pieces) m = (.ok (), m') := by
  cases sink with
  | nowhere =>
    constructor
    · rintro rfl
      rfl
    · exact fun h => (congrArg Prod.snd h).symm
  | console =>
    have hwrite : Exec.runOn (Machine.thePlatform.update (·.write (lineOf pieces))) m =
        (.ok (), Machine.thePlatform.set (m.platform.write (lineOf pieces)) m) := rfl
    show _ ↔ Exec.runOn (do
      Machine.thePlatform.update (·.write (lineOf pieces))
      Client.written (lineOf pieces)) m = _
    rw [Exec.runOn_bind_of_ok hwrite]
    exact Iff.rfl

theorem exists_printed [Client σ] (console : ConsoleReturns σ) (sink : Sink) (pieces : List Text)
    (m : Machine σ) : ∃ m', Printed sink pieces m m' := by
  obtain ⟨_, m', hline⟩ := putLine_returns console sink pieces m
  exact ⟨m', printed_iff.2 hline⟩

/-- A line is not seen where neither the console is looked at nor anything that its observers
change. -/
theorem Printed.keeps [Client σ] {view : Machine σ → A} {sink : Sink} {pieces : List Text}
    {m m' : Machine σ} (h : Printed sink pieces m m')
    (hwrite : ∀ t m, view (Machine.thePlatform.set (m.platform.write t) m) = view m)
    (hwritten : ∀ text, Exec.Keeps (Client.written (σ := σ) text) view) : view m' = view m :=
  (putLine_keeps hwrite hwritten sink pieces).of_runOn (printed_iff.1 h)

section

variable {client other : Client σ} (same : other.written = client.written)

include same

/-- Of the client, only the observer of the console counts for what is printed. -/
theorem puts_congr (sink : Sink) (t : Text) : @puts σ other sink t = @puts σ client sink t := by
  cases sink with
  | nowhere => rfl
  | console =>
    show (do
      Machine.thePlatform.update (·.write (Text.upToNul t))
      other.written (Text.upToNul t)) = _
    rw [same]
    rfl

theorem putLine_congr (sink : Sink) (pieces : List Text) :
    @putLine σ other sink pieces = @putLine σ client sink pieces := puts_congr same sink _

end

/-! ### Giving up -/

/-- The platform after the message of a run that gives up. -/
def Platform.gaveUp (p : Platform) (text : Text) : Platform :=
  p.write (Platform.panicLine (some text) none 0)

/-- To give up writes a message to the console and does nothing else. -/
theorem runOn_panic (text : Text) (m : Machine σ) :
    Exec.runOn (panic text : Exec σ α) m =
      (.error (.panic (some text)), Machine.thePlatform.set (m.platform.gaveUp text) m) := rfl

end Supervisor
