/-
Actions that have a course.

Handlers may do much without harm to the trace.  They may leave it alone, note events that tell of
no trap, change the registry, list it, and report errors.  What they may not do is to turn tracing
off, to empty the trace, or to note the beginning or the end of a trap.

* `Exec.Traceable`, `TrapExec.Traceable` — while tracing is enabled, whatever returns has a course;
* `System.register_traceable`, `ErrorSite.handle_traceable` and their companions — the calls that
  handlers make;
* `TrapHandler.run_traceable`, `fallback_traceable` — the handlers of the kernel, and the last
  resort.
-/
import Supervisor.Proofs.Fault.Site
import Supervisor.Proofs.Trap.Course

namespace Supervisor

variable {σ α β A : Type}

/-! ### Actions that have a course -/

/-- While tracing is enabled, every run of the action that returns has a course. -/
def Exec.Traceable (x : Exec σ α) : Prop :=
  ∀ ⦃m : Machine σ⦄ ⦃a : α⦄ ⦃m' : Machine σ⦄, m.system.trace.enabled = true →
    runOn x m = (.ok a, m') → ∃ events episodes, Course x m events episodes a m'

namespace Exec.Traceable

theorem quiet {x : Exec σ α} (keeps : Keeps x (·.system.trace)) : Traceable x :=
  fun _ _ _ _ returned => ⟨[], [], .quiet returned (keeps.of_runOn returned)⟩

theorem of_stops {x : Exec σ α} (h : Stops x) : Traceable x :=
  fun _ _ _ _ returned => absurd returned (h _ _ _)

theorem pure (a : α) : Traceable (Pure.pure a : Exec σ α) := .quiet (.pure a)

theorem get : Traceable (getThe (Machine σ) : Exec σ (Machine σ)) := .quiet .get

theorem read (p : Part (Machine σ) A) : Traceable p.read := .quiet (.read p)

theorem bind {x : Exec σ α} {k : α → Exec σ β} (hx : Traceable x) (hk : ∀ a, Traceable (k a)) :
    Traceable (x >>= k) := by
  intro m b m' enabled returned
  obtain ⟨a, m₁, hfirst, hnext⟩ := of_runOn_bind_eq_ok returned
  obtain ⟨events, episodes, hcourse⟩ := hx enabled hfirst
  obtain ⟨events', episodes', hcourse'⟩ := hk a ((hcourse.tells enabled).enabled enabled) hnext
  exact ⟨_, _, hcourse.bind hcourse'⟩

theorem ite {c : Prop} [Decidable c] {x y : Exec σ α} (hx : Traceable x) (hy : Traceable y) :
    Traceable (if c then x else y) := by
  split
  · exact hx
  · exact hy

theorem forM {l : List A} {f : A → Exec σ PUnit} (h : ∀ a, Traceable (f a)) :
    Traceable (l.forM f) := by
  induction l with
  | nil => exact pure _
  | cons a l ih => exact bind (h a) fun _ => ih

theorem thenFinally {x : Exec σ α} {g : Machine σ → Machine σ} (hx : Traceable x)
    (hg : ∀ m, (g m).system.trace = m.system.trace) : Traceable (x.finally g) := by
  intro m a m' enabled returned
  rw [runOn_finally] at returned
  obtain ⟨hanswer, rfl⟩ := Prod.mk.inj returned
  have hbody : runOn x m = (.ok a, (runOn x m).2) := Prod.ext hanswer rfl
  obtain ⟨events, episodes, hcourse⟩ := hx enabled hbody
  exact ⟨events, episodes, hcourse.thenFinally (hg _)⟩

theorem withLock {lock : Part (Machine σ) Spinlock}
    (hlock : ∀ l m, (lock.set l m).system.trace = m.system.trace) {body refused : Exec σ α}
    (hbody : Traceable body) (hrefused : Traceable refused) (core : UInt32) :
    Traceable (withLock lock core body refused) := by
  refine .bind (.read lock) fun l => ?_
  split
  · exact .bind (.quiet (.update hlock _)) fun _ => .thenFinally hbody fun m => hlock _ m
  · exact hrefused
  · exact .of_stops (.throw _)

/-- Events that tell of no trap may be noted. -/
theorem note {kind : EventKind} (h : kind.isMark = false) (name : Text) (value : UInt64) :
    Traceable (System.note (σ := σ) kind name value) := by
  intro m a m' enabled returned
  obtain ⟨time, hnoted⟩ := System.note_extends kind name value enabled returned
  exact ⟨_, _, .note ⟨returned, hnoted⟩ h⟩

end Exec.Traceable

/-- The same for an action of a trap, whatever the frame. -/
def TrapExec.Traceable (x : TrapExec σ α) : Prop := ∀ f, Exec.Traceable (x.onFrame f)

namespace TrapExec

theorem onFrame_bind (x : TrapExec σ α) (k : α → TrapExec σ β) (f : Frame) :
    (x >>= k).onFrame f = x.onFrame f >>= fun r => (k r.1).onFrame r.2 := by
  refine Exec.ext fun m => ?_
  rw [runOn_onFrame, runOn_bind, Exec.runOn_bind, runOn_onFrame]
  cases runOn x f m with
  | mk ended m' =>
    obtain ⟨r, f'⟩ := ended
    cases r <;> rfl

theorem onFrame_onMachine (x : Exec σ α) (f : Frame) :
    (onMachine x).onFrame f = x >>= fun a => pure (a, f) := by
  refine Exec.ext fun m => ?_
  rw [runOn_onFrame, runOn_onMachine, Exec.runOn_bind]
  cases Exec.runOn x m with
  | mk r m' => cases r <;> rfl

namespace Traceable

theorem still {x : TrapExec σ α} (h : ∀ f m, (runOn x f m).2 = m) : Traceable x :=
  fun f => .quiet fun m => congrArg (·.system.trace) (h f m)

theorem pure (a : α) : Traceable (Pure.pure a : TrapExec σ α) := still fun _ _ => rfl

theorem onMachine {x : Exec σ α} (h : Exec.Traceable x) : Traceable (onMachine x) := by
  intro f
  rw [onFrame_onMachine]
  exact .bind h fun _ => .pure _

theorem bind {x : TrapExec σ α} {k : α → TrapExec σ β} (hx : Traceable x)
    (hk : ∀ a, Traceable (k a)) : Traceable (x >>= k) := by
  intro f
  rw [onFrame_bind]
  exact .bind (hx f) fun r => hk r.1 r.2

theorem ite {c : Prop} [Decidable c] {x y : TrapExec σ α} (hx : Traceable x) (hy : Traceable y) :
    Traceable (if c then x else y) := by
  split
  · exact hx
  · exact hy

end Traceable

end TrapExec

/-! ### The registry -/

namespace System

theorem locked_traceable {body refused : Exec σ α} (hbody : Exec.Traceable body)
    (hrefused : Exec.Traceable refused) : Exec.Traceable (locked body refused) :=
  .bind (.quiet (currentHart_keeps fun _ => rfl)) fun core =>
    .withLock (fun _ _ => rfl) hbody hrefused core

/-- A change of the registry is made under the lock, and noted if it took place. -/
theorem change_traceable {f : Registry → α × Registry} {a : α} {kind : EventKind}
    (h : kind.isMark = false) {p : α → Prop} [DecidablePred p] (name : Text) (value : UInt64) :
    Exec.Traceable (do
      let answer ← locked (σ := σ) (Machine.theRegistry.change f) (return a)
      if p answer then note kind name value
      return answer) :=
  .bind (locked_traceable (.quiet (.change (fun _ _ => rfl) _)) (.pure a)) fun _ =>
    .ite (.bind (.note h _ _) fun _ => .pure _) (.pure _)

theorem register_traceable (t : TrapType) (p : Proposal) :
    Exec.Traceable (register (σ := σ) t p) := change_traceable rfl _ _

theorem unregister_traceable (t : TrapType) (description : Text) (registrar : Registrar) :
    Exec.Traceable (unregister (σ := σ) t description registrar) := change_traceable rfl _ _

theorem unregisterBound_traceable (context : ContextId) (registrar : Registrar) :
    Exec.Traceable (unregisterBound (σ := σ) context registrar) := change_traceable rfl _ _

theorem purge_traceable (context : ContextId) : Exec.Traceable (purge (σ := σ) context) :=
  change_traceable rfl _ _

end System

/-! ### The handlers of errors -/

namespace ErrorSite

theorem console_traceable : Exec.Traceable (ErrorSite.system (σ := σ)).console :=
  .bind (.read _) fun _ => .ite (.bind .get fun _ => .pure _) (.pure _)

theorem locked_traceable {body refused : Exec σ α} (hbody : Exec.Traceable body)
    (hrefused : Exec.Traceable refused) :
    Exec.Traceable ((ErrorSite.system (σ := σ)).locked body refused) := by
  have hhart : Exec.Traceable (ErrorSite.system (σ := σ)).currentHart :=
    .bind (.read _) fun _ => .ite (.quiet (.change (fun _ _ => rfl) _)) (.pure 0)
  exact .bind hhart fun core => .withLock (fun _ _ => rfl) hbody hrefused core

theorem record_traceable (e : SystemError) (outcome : ErrorOutcome) :
    Exec.Traceable ((ErrorSite.system (σ := σ)).record e outcome) :=
  locked_traceable (.quiet (.update (fun _ _ => rfl) _)) (.pure ())

theorem note_traceable {kind : EventKind} (h : kind.isMark = false) (name : Text)
    (value : UInt64) : Exec.Traceable ((ErrorSite.system (σ := σ)).note kind name value) :=
  .bind (.read _) fun _ => .ite (.note h name value) (.pure ())

end ErrorSite

/-! ### Steps of the handlers of the kernel -/

theorem theFrame_traceable : TrapExec.Traceable (theFrame (σ := σ)) := .still fun _ _ => rfl

theorem skipInstruction_traceable : TrapExec.Traceable (skipInstruction (σ := σ)) :=
  .still fun _ _ => rfl

theorem hasFirmware_traceable :
    TrapExec.Traceable (onMachine (System.hasFirmware (σ := σ))) :=
  .onMachine (.bind .get fun _ => .pure _)

theorem disarmTimer_traceable : TrapExec.Traceable (onMachine (disarmTimer (σ := σ))) :=
  .onMachine (.quiet (.update (fun _ _ => rfl) _))

theorem clearSoftware_traceable : TrapExec.Traceable (onMachine (clearSoftware (σ := σ))) :=
  .onMachine (.quiet fun _ => rfl)

theorem console_traceable : TrapExec.Traceable (onMachine (System.console (σ := σ))) :=
  .onMachine (.quiet System.console_keeps)

/-! ### Output -/

variable [Client σ] (written : ∀ text, Exec.Traceable (Client.written (σ := σ) text))

include written

theorem puts_traceable (sink : Sink) (t : Text) : Exec.Traceable (puts (σ := σ) sink t) := by
  cases sink with
  | nowhere => exact .pure ()
  | console =>
    exact .bind (.quiet (.update (fun _ _ => rfl) _)) fun _ => written _

theorem putLine_traceable (sink : Sink) (pieces : List Text) :
    Exec.Traceable (putLine (σ := σ) sink pieces) := puts_traceable written sink _

theorem say_traceable (sink : Sink) (pieces : List Text) :
    TrapExec.Traceable (say (σ := σ) sink pieces) := .onMachine (putLine_traceable written sink _)

/-! ### Listings -/

theorem Registry.print_traceable (sink : Sink) :
    Exec.Traceable (Registry.print (σ := σ) Machine.theRegistry sink) := by
  have hentries (t : TrapType) (fuel i : Nat) :
      Exec.Traceable (printEntries (σ := σ) Machine.theRegistry t sink fuel i) := by
    induction fuel generalizing i with
    | zero => exact .pure ()
    | succ fuel ih =>
      refine .bind (.read _) fun r => ?_
      split
      · exact .pure ()
      · exact .bind (putLine_traceable written sink _) fun _ => ih (i + 1)
  cases sink with
  | nowhere => exact .pure ()
  | console =>
    refine .bind (puts_traceable written .console _) fun _ => .forM fun t => ?_
    exact .bind (.read _) fun r => .ite
      (.bind (putLine_traceable written _ _) fun _ => hentries t _ 0) (.pure ())

/-- The handlers are printed under the lock.  A trap that an observer takes then is turned away
from the registry. -/
theorem System.printHandlers_traceable : Exec.Traceable (printHandlers (σ := σ)) :=
  locked_traceable (.bind (.quiet console_keeps) fun sink =>
    Registry.print_traceable written sink) (.pure ())

theorem ErrorLog.print_traceable (log : Part (Machine σ) ErrorLog) (count : Nat) (sink : Sink) :
    Exec.Traceable (ErrorLog.print log count sink) := by
  have hfrom (count i : Nat) : Exec.Traceable (printFrom log sink count i) := by
    induction count generalizing i with
    | zero => exact .pure ()
    | succ count ih =>
      refine .bind (.read _) fun l => ?_
      split
      · exact .pure ()
      · exact .bind (putLine_traceable written sink _) fun _ => ih (i + 1)
  cases sink with
  | nowhere => exact .pure ()
  | console =>
    exact .bind (.read _) fun l => .ite (puts_traceable written .console _)
      (.bind (putLine_traceable written _ _) fun _ => hfrom _ _)

theorem Frame.print_traceable (f : Frame) (sink : Sink) : Exec.Traceable (f.print (σ := σ) sink) :=
  .forM fun pieces => putLine_traceable written sink pieces

/-! ### Errors -/

namespace ErrorSite

theorem printLog_traceable (count : Nat) :
    Exec.Traceable ((ErrorSite.system (σ := σ)).printLog count) :=
  locked_traceable (.bind console_traceable fun sink =>
    ErrorLog.print_traceable written _ count sink) (.pure ())

theorem receive_traceable (e : SystemError) :
    Exec.Traceable ((ErrorSite.system (σ := σ)).receive e) := by
  have hlatch (sink : Sink) : Exec.Traceable ((ErrorSite.system (σ := σ)).latch e sink) :=
    .bind (.quiet (.update (fun _ _ => rfl) _)) fun _ => .bind (note_traceable rfl _ _) fun _ =>
      putLine_traceable written sink _
  refine .bind console_traceable fun sink => .bind (note_traceable rfl _ _) fun _ =>
    .bind (.read _) fun t => .ite ?_ ?_
  · exact .bind (record_traceable e _) fun _ => .bind (putLine_traceable written sink _) fun _ =>
      .pure none
  · exact .ite (.bind (hlatch sink) fun _ => .pure _) (.pure _)

theorem takers_traceable (e : SystemError) (sink : Sink) :
    Exec.Traceable ((ErrorSite.system (σ := σ)).takers e sink) :=
  locked_traceable (.bind (.read _) fun _ => .pure _)
    (.bind (putLine_traceable written sink _) fun _ => .pure [])

/-- An error that is fatal and that nobody helps with does not come back. -/
theorem conclude_traceable (e : SystemError) (sink : Sink) (outcome : ErrorOutcome) :
    Exec.Traceable ((ErrorSite.system (σ := σ)).conclude e sink outcome) :=
  .bind (record_traceable e _) fun _ => .bind (putLine_traceable written sink _) fun _ =>
    .ite (.of_stops (.of_first (halt_stops _ e) _)) (.pure _)

end ErrorSite

section

variable (handlers : ∀ n e, Exec.Traceable (Client.errorHandler (σ := σ) n e))

include handlers

theorem ErrorHandler.run_traceable (h : ErrorHandler) (e : SystemError) :
    Exec.Traceable (h.run (σ := σ) e) := by
  have hline (sink : Sink) (pieces : List Text) (o : ErrorOutcome) : Exec.Traceable (do
      putLine (σ := σ) sink pieces
      return o) := .bind (putLine_traceable written sink pieces) fun _ => .pure o
  refine .bind (.quiet System.console_keeps) fun sink => ?_
  cases h with
  | memory => exact .ite (hline _ _ _) (.ite (hline _ _ _) (.ite (hline _ _ _) (hline _ _ _)))
  | interrupt | process | syscall => exact hline _ _ _
  | fatalDiagnostics =>
    exact .bind .get fun m => .bind (putLine_traceable written sink _) fun _ =>
      .bind (ErrorSite.printLog_traceable written 5) fun _ => .pure _
  | client n => exact handlers n e

theorem ErrorSite.offer_traceable (e : SystemError) (entries : List ErrorEntry)
    (before : ErrorOutcome) : Exec.Traceable (offer (σ := σ) e entries before) := by
  induction entries generalizing before with
  | nil => exact .pure before
  | cons x entries ih =>
    refine .bind (x.handler.run_traceable written handlers e) fun o => ?_
    cases o with
    | handled => exact .pure _
    | _ => exact ih _

/-- To report an error is to offer it to the handlers of errors. -/
theorem ErrorSite.handle_traceable (e : SystemError) :
    Exec.Traceable ((ErrorSite.system (σ := σ)).handle e) := by
  refine .bind (receive_traceable written e) fun received => ?_
  cases received with
  | none => exact .pure _
  | some sink =>
    exact .bind (takers_traceable written e sink) fun entries =>
      .bind (offer_traceable written handlers e entries _) fun o =>
        conclude_traceable written e sink o

end

/-! ### Handlers of the kernel -/

omit written in
theorem haltOnFault_stops (f : Frame) : Exec.Stops (haltOnFault (σ := σ) (α := α) f) := by
  have hshutDown : Exec.Stops (shutDown 1 : Exec σ PUnit) := .bind fun _ => .throw _
  exact .bind fun _ => .bind fun _ => .bind fun _ => .bind fun _ => .bind fun _ =>
    .ite (.of_first hshutDown _) (panic_stops _)

theorem BasicHandler.run_traceable (h : BasicHandler) :
    TrapExec.Traceable (h.run (σ := σ)) := by
  have hline (sink : Sink) (pieces : List Text) (v : Verdict) : TrapExec.Traceable (do
      say (σ := σ) sink pieces
      return v) := .bind (say_traceable written sink pieces) fun _ => .pure v
  have hskip (sink : Sink) (pieces : List Text) : TrapExec.Traceable (do
      say (σ := σ) sink pieces
      skipInstruction
      return Verdict.handled) :=
    .bind (say_traceable written sink pieces) fun _ =>
      .bind skipInstruction_traceable fun _ => .pure _
  refine .bind theFrame_traceable fun f => .bind console_traceable fun sink => ?_
  cases h with
  | timer =>
    have htick : TrapExec.Traceable (do
        if (← getThe (Machine σ)).system.config.logTraps then say sink ["[TRAP] timer tick\n"]
        return Verdict.handled) :=
      .bind (.still fun _ _ => rfl) fun _ => .ite (hline sink _ _) (.pure _)
    exact .bind hasFirmware_traceable fun _ =>
      .ite (.bind disarmTimer_traceable fun _ => htick) htick
  | software => exact .bind clearSoftware_traceable fun _ => .pure _
  | external | illegalInstruction | fault | unknown => exact hline sink _ _
  | systemCall | breakpoint => exact hskip sink _

theorem DiagnosticHandler.run_traceable (h : DiagnosticHandler) :
    TrapExec.Traceable (h.run (σ := σ)) := by
  refine .bind theFrame_traceable fun f => .bind console_traceable fun sink => ?_
  cases h with
  | fatalFault => exact .onMachine (.of_stops (haltOnFault_stops f))
  | illegalInstruction =>
    exact .bind (say_traceable written sink _) fun _ =>
      .onMachine (.of_stops (haltOnFault_stops f))
  | breakpoint =>
    exact .bind (say_traceable written sink _) fun _ =>
      .bind (.onMachine (f.print_traceable written sink)) fun _ =>
        .bind skipInstruction_traceable fun _ => .bind theFrame_traceable fun _ =>
          .bind (say_traceable written sink _) fun _ => .pure _

theorem TrapHandler.run_traceable
    (handlers : ∀ n, TrapExec.Traceable (Client.trapHandler (σ := σ) n)) (h : TrapHandler) :
    TrapExec.Traceable (h.run (σ := σ)) := by
  cases h with
  | basic h => exact h.run_traceable written
  | diagnostic h => exact h.run_traceable written
  | periodicTick =>
    exact .bind (.onMachine (.bind (.quiet fun _ => rfl) fun _ =>
      .bind (.quiet (.change (fun _ _ => rfl) _)) fun _ =>
        .quiet (.update (fun _ _ => rfl) _))) fun _ => .pure _
  | client n => exact handlers n

/-- The last resort for a trap type. -/
theorem fallback_traceable (t : TrapType) : TrapExec.Traceable (fallback (σ := σ) t) := by
  refine .bind theFrame_traceable fun f => .bind console_traceable fun sink => ?_
  cases t with
  | systemCall | breakpoint =>
    exact .bind (say_traceable written sink _) fun _ => skipInstruction_traceable
  | softwareInterrupt => exact clearSoftware_traceable
  | timerInterrupt =>
    exact .bind hasFirmware_traceable fun _ =>
      .ite (.bind disarmTimer_traceable fun _ => say_traceable written sink _)
        (say_traceable written sink _)
  | _ => exact say_traceable written sink _

end Supervisor
