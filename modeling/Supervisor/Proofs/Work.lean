/-
What operations are made of.

The operations of the trap system and of its errors look at the machine, change parts of it that
lie outside of the registry, make changes of the registry, and call the handlers of errors and the
observers of the console.  `Work may x` says this of an action `x`, where `may` tells which changes
of the registry it makes.  What holds of each of these steps then holds of the operations.

* `Machine.outline` — the registry, and how far the start of the system has come;
* `Machine.advance`, `Exec.Blind` — actions to which it does not matter which numbers for
  registrars and contexts are drawn next;
* `Inner` — parts of the machine that lie outside of all this;
* `Work.leads`, `Work.blind` — what the steps have in common;
* `System.register_work`, `System.setUp_work`, `ErrorSite.handle_work` and their companions.

Design notes: nothing is said about the client here.  What its handlers and observers do enters
where the steps are put together.
-/
import Supervisor.Api
import Supervisor.Proofs.Action
import Supervisor.Proofs.Registry.History

namespace Supervisor

open Registry (Change)

variable {σ α β A B : Type}

/-! ### Numbers that are drawn -/

/-- The registry, and how far the start of the system has come. -/
abbrev Machine.outline (m : Machine σ) : Registry × Bool × Bool :=
  (m.system.registry, m.system.claimed, m.system.ready)

/-- The machine once some more numbers for registrars and for contexts were drawn. -/
def Machine.advance (registrars contexts : UInt64) (m : Machine σ) : Machine σ :=
  { m with
    nextRegistrar := m.nextRegistrar + registrars
    nextContext := m.nextContext + contexts }

/-- An action to which it does not matter which numbers are drawn next. -/
def Exec.Blind (x : Exec σ α) : Prop :=
  ∀ g c m, Exec.runOn x (m.advance g c) =
    ((Exec.runOn x m).1, (Exec.runOn x m).2.advance g c)

namespace Exec.Blind

theorem pure (a : α) : Blind (Pure.pure a : Exec σ α) := fun _ _ _ => rfl

theorem bind {x : Exec σ α} {f : α → Exec σ β} (hx : Blind x) (hf : ∀ a, Blind (f a)) :
    Blind (x >>= f) := by
  intro g c m
  rw [Exec.runOn_bind, Exec.runOn_bind, hx g c m]
  cases hrun : Exec.runOn x m with
  | mk r m' =>
    cases r with
    | ok a => exact hf a g c m'
    | error e => rfl

/-- What an action sees of the machine tells it nothing of the numbers. -/
theorem look {f : Machine σ → Exec σ α} (same : ∀ g c m, f (m.advance g c) = f m)
    (hf : ∀ m, Blind (f m)) : Blind (getThe (Machine σ) >>= f) := by
  intro g c m
  have hseen (m : Machine σ) : Exec.runOn (getThe (Machine σ) >>= f) m = Exec.runOn (f m) m :=
    Exec.runOn_bind_of_ok (Exec.runOn_get m)
  rw [hseen, hseen, same, hf m g c m]

theorem thenFinally {x : Exec σ α} {f : Machine σ → Machine σ} (hx : Blind x)
    (hf : ∀ g c m, f (m.advance g c) = (f m).advance g c) : Blind (x.finally f) := by
  intro g c m
  rw [Exec.runOn_finally, Exec.runOn_finally, hx g c m, hf]

end Exec.Blind

/-! ### Parts out of sight -/

/-- A part of the machine apart from the registry, from the start of the system and from the
numbers to be drawn. -/
structure Inner (p : Part (Machine σ) A) : Prop where
  get_advance (g c : UInt64) (m : Machine σ) : p.get (m.advance g c) = p.get m
  set_advance (a : A) (g c : UInt64) (m : Machine σ) :
    p.set a (m.advance g c) = (p.set a m).advance g c
  outline_set (a : A) (m : Machine σ) : (p.set a m).outline = m.outline

namespace Inner

theorem platform : Inner (Machine.thePlatform (σ := σ)) :=
  ⟨fun _ _ _ => rfl, fun _ _ _ _ => rfl, fun _ _ => rfl⟩

theorem lock : Inner (Machine.theLock (σ := σ)) :=
  ⟨fun _ _ _ => rfl, fun _ _ _ _ => rfl, fun _ _ => rfl⟩

theorem trace : Inner (Machine.theTrace (σ := σ)) :=
  ⟨fun _ _ _ => rfl, fun _ _ _ _ => rfl, fun _ _ => rfl⟩

theorem errors : Inner (Machine.theErrors (σ := σ)) :=
  ⟨fun _ _ _ => rfl, fun _ _ _ _ => rfl, fun _ _ => rfl⟩

/-- What lies within such a part is one as well. -/
theorem comp {p : Part (Machine σ) A} (h : Inner p) (q : Part A B) : Inner (p.comp q) where
  get_advance g c m := congrArg q.get (h.get_advance g c m)
  set_advance b g c m := by
    show p.set (q.set b (p.get (m.advance g c))) (m.advance g c) = _
    rw [h.get_advance, h.set_advance]
    rfl
  outline_set b m := h.outline_set _ m

end Inner

/-! ### Steps -/

variable [Client σ]

/-- Actions that are put together from looks at the machine, changes that lie outside of the
registry, changes of the registry that `may` allows, and calls of the client. -/
inductive Work (may : Change → Prop) : {α : Type} → Exec σ α → Prop
  | look {α : Type} {f : Machine σ → Exec σ α} (same : ∀ g c m, f (m.advance g c) = f m)
      (next : ∀ m, Work may (f m)) : Work may (getThe (Machine σ) >>= f)
  | inner {α : Type} {x : Exec σ α} (blind : Exec.Blind x) (keeps : Exec.Keeps x Machine.outline) :
      Work may x
  | registry {α : Type} {f : Registry → α × Registry} {c : Change} (allowed : may c)
      (makes : ∀ r, (f r).2 = r.after c) : Work may (Machine.theRegistry.change f)
  | written (text : Text) : Work may (Client.written text)
  | handler (number : Nat) (e : SystemError) : Work may (Client.errorHandler number e)
  | bind {α β : Type} {x : Exec σ α} {f : α → Exec σ β} (first : Work may x)
      (next : ∀ a, Work may (f a)) : Work may (x >>= f)
  | thenFinally {α : Type} {x : Exec σ α} {f : Machine σ → Machine σ} (first : Work may x)
      (blind : ∀ g c m, f (m.advance g c) = (f m).advance g c)
      (keeps : ∀ m, (f m).outline = m.outline) : Work may (x.finally f)

namespace Work

variable {may : Change → Prop}

/-- Work leads along whatever its steps lead along. -/
theorem leads {R : Machine σ → Machine σ → Prop} [IsPreorder (Machine σ) R]
    (outline : ∀ m m', m'.outline = m.outline → R m m')
    (changes : ∀ c, may c → ∀ m m', m'.outline = (m.system.registry.after c, m.outline.2) → R m m')
    (written : ∀ text, Exec.Leads (Client.written (σ := σ) text) R)
    (handlers : ∀ n e, Exec.Leads (Client.errorHandler (σ := σ) n e) R)
    {x : Exec σ α} (h : Work may x) : Exec.Leads x R := by
  induction h with
  | look _ _ ih => exact .bind .get ih
  | inner _ keeps => exact fun m => outline _ _ (keeps m)
  | registry allowed makes =>
    refine fun m => changes _ allowed _ _ ?_
    show (_, _) = _
    rw [← makes]
    rfl
  | written text => exact written text
  | handler number e => exact handlers number e
  | bind _ _ ihx ihf => exact .bind ihx ihf
  | thenFinally _ _ keeps ih => exact fun m => trans_of R (ih m) (outline _ _ (keeps _))

/-- Work is blind for the numbers to be drawn if its calls of the client are. -/
theorem blind (written : ∀ text, Exec.Blind (Client.written (σ := σ) text))
    (handlers : ∀ n e, Exec.Blind (Client.errorHandler (σ := σ) n e))
    {x : Exec σ α} (h : Work may x) : Exec.Blind x := by
  induction h with
  | look same _ ih => exact .look same ih
  | inner blind _ => exact blind
  | registry _ _ => exact fun _ _ _ => rfl
  | written text => exact written text
  | handler number e => exact handlers number e
  | bind _ _ ihx ihf => exact .bind ihx ihf
  | thenFinally _ blind _ ih => exact .thenFinally ih blind

theorem pure (a : α) : Work may (Pure.pure a : Exec σ α) := .inner (.pure a) (.pure a)

theorem throw (e : Stop) : Work may (throw e : Exec σ α) := .inner (fun _ _ _ => rfl) (.throw e)

theorem ite {c : Prop} [Decidable c] {x y : Exec σ α} (hx : Work may x) (hy : Work may y) :
    Work may (if c then x else y) := by
  split
  · exact hx
  · exact hy

theorem forM {l : List A} {f : A → Exec σ PUnit} (h : ∀ a ∈ l, Work may (f a)) :
    Work may (l.forM f) := by
  induction l with
  | nil => exact .pure _
  | cons a l ih =>
    exact .bind (h a List.mem_cons_self) fun _ => ih fun b hb => h b (List.mem_cons_of_mem a hb)

theorem change {p : Part (Machine σ) A} (h : Inner p) (f : A → β × A) :
    Work may (p.change f) := by
  refine .inner (fun g c m => ?_) (.change h.outline_set f)
  rw [Part.runOn_change, Part.runOn_change, h.get_advance, h.set_advance]

theorem update {p : Part (Machine σ) A} (h : Inner p) (f : A → A) : Work may (p.update f) := by
  refine .inner (fun g c m => ?_) (.update h.outline_set f)
  rw [Part.runOn_update, Part.runOn_update, h.get_advance, h.set_advance]

theorem read {p : Part (Machine σ) A} (h : ∀ g c m, p.get (m.advance g c) = p.get m) :
    Work may p.read := .look (fun g c m => by rw [h]) fun m => .pure (p.get m)

theorem withLock {lock : Part (Machine σ) Spinlock} (h : Inner lock) {body refused : Exec σ α}
    (hbody : Work may body) (hrefused : Work may refused) (core : UInt32) :
    Work may (withLock lock core body refused) := by
  refine .bind (.read h.get_advance) fun l => ?_
  split
  · refine .bind (.update h _) fun _ => .thenFinally hbody (fun g c m => ?_) fun m => ?_
    · rw [h.get_advance, h.set_advance]
    · exact h.outline_set _ m
  · exact hrefused
  · exact .throw _

end Work

variable {may : Change → Prop}

theorem puts_work (sink : Sink) (t : Text) : Work may (puts (σ := σ) sink t) := by
  cases sink with
  | nowhere => exact .pure ()
  | console => exact .bind (.update .platform _) fun _ => .written _

theorem putLine_work (sink : Sink) (pieces : List Text) :
    Work may (putLine (σ := σ) sink pieces) := puts_work sink _

theorem platformConsole_work : Work may (platformConsole (σ := σ)) :=
  .look (fun _ _ _ => rfl) fun _ => .pure _

theorem traceEvent_work {trace : Part (Machine σ) Trace} (h : Inner trace) (kind : EventKind)
    (name : Text) (value : UInt64) : Work may (traceEvent trace kind name value) := by
  refine .bind (.read h.get_advance) fun t => .ite ?_ (.pure false)
  have hrecord (now : UInt64) : Work may (do
      trace.update (·.record now kind name value)
      return true) := .bind (.update h _) fun _ => .pure true
  exact .ite (.bind (.change .platform _) hrecord) (.bind (.pure 0) hrecord)

/-! ### The trap system -/

namespace System

theorem console_work : Work may (console (σ := σ)) :=
  .look (fun _ _ _ => rfl) fun _ => .pure _

theorem currentHart_work : Work may (currentHart (σ := σ)) :=
  .look (fun _ _ _ => rfl) fun _ => .ite (.change .platform _) (.pure 0)

theorem locked_work {body refused : Exec σ α} (hbody : Work may body)
    (hrefused : Work may refused) : Work may (locked body refused) :=
  .bind currentHart_work fun core => .withLock .lock hbody hrefused core

theorem note_work (kind : EventKind) (name : Text) (value : UInt64) :
    Work may (note (σ := σ) kind name value) :=
  .bind (traceEvent_work .trace kind name value) fun _ => .pure ()

theorem register_work {t : TrapType} {p : Proposal} (h : may (.add t p)) :
    Work may (register (σ := σ) t p) :=
  .bind (locked_work (.registry h fun _ => rfl) (.pure _)) fun _ =>
    .ite (.bind (note_work _ _ _) fun _ => .pure _) (.pure _)

theorem unregister_work {t : TrapType} {text : Text} {g : Registrar} (h : may (.remove t text g)) :
    Work may (unregister (σ := σ) t text g) :=
  .bind (locked_work (.registry h fun _ => rfl) (.pure _)) fun _ =>
    .ite (.bind (note_work _ _ _) fun _ => .pure _) (.pure _)

theorem unregisterBound_work {context : ContextId} {g : Registrar}
    (h : may (.removeBound context g)) : Work may (unregisterBound (σ := σ) context g) :=
  .bind (locked_work (.registry h fun _ => rfl) (.pure _)) fun _ =>
    .ite (.bind (note_work _ _ _) fun _ => .pure _) (.pure _)

theorem purge_work {context : ContextId} (h : may (.purge context)) :
    Work may (purge (σ := σ) context) :=
  .bind (locked_work (.registry h fun _ => rfl) (.pure _)) fun _ =>
    .ite (.bind (note_work _ _ _) fun _ => .pure _) (.pure _)

theorem handlerCount_work (t : TrapType) : Work may (handlerCount (σ := σ) t) :=
  locked_work (.bind (.read fun _ _ _ => rfl) fun _ => .pure _) (.pure 0)

theorem printEntries_work (t : TrapType) (sink : Sink) (fuel i : Nat) :
    Work may (Registry.printEntries (σ := σ) Machine.theRegistry t sink fuel i) := by
  induction fuel generalizing i with
  | zero => exact .pure ()
  | succ fuel ih =>
    refine .bind (.read fun _ _ _ => rfl) fun r => ?_
    split
    · exact .pure ()
    · exact .bind (putLine_work sink _) fun _ => ih (i + 1)

theorem printHandlers_work : Work may (printHandlers (σ := σ)) := by
  have htype (sink : Sink) (t : TrapType) : Work may (do
      let n := (← Machine.theRegistry.read (σ := σ)).count t
      if n ≠ 0 then
        putLine sink [t.name, " (", Numeral.decimal n, "):\n"]
        Registry.printEntries Machine.theRegistry t sink bucketCapacity 0) :=
    .bind (.read fun _ _ _ => rfl) fun _ => .ite
      (.bind (putLine_work sink _) fun _ => printEntries_work t sink _ 0) (.pure ())
  have hprint (sink : Sink) : Work may (Registry.print (σ := σ) Machine.theRegistry sink) := by
    cases sink with
    | nowhere => exact .pure ()
    | console => exact .bind (puts_work .console _) fun _ => .forM fun t _ => htype .console t
  exact locked_work (.bind console_work hprint) (.pure ())

theorem installBasic_work
    (h : ∀ d ∈ basicHandlers, may (.add d.1 ⟨some (.basic d.2.1), some d.2.2, {}⟩)) :
    Work may (installBasic (σ := σ)) :=
  .forM fun d hd => .bind (register_work (h d hd)) fun _ =>
    .ite (.bind console_work fun sink => putLine_work sink _) (.pure _)

theorem installDiagnosticsFrom_work {l : List (TrapType × DiagnosticHandler × String)}
    (h : ∀ d ∈ l, may (.add d.1
      ⟨some (.diagnostic d.2.1), some d.2.2, { priority := diagnosticPriority }⟩)) :
    Work may (installDiagnosticsFrom (σ := σ) l) := by
  induction l with
  | nil => exact .pure 0
  | cons d l ih =>
    exact .bind (register_work (h d List.mem_cons_self)) fun _ =>
      .bind (ih fun e he => h e (List.mem_cons_of_mem d he)) fun _ => .pure _

theorem installDiagnostics_work
    (h : ∀ d ∈ diagnosticHandlers, may (.add d.1
      ⟨some (.diagnostic d.2.1), some d.2.2, { priority := diagnosticPriority }⟩)) :
    Work may (installDiagnostics (σ := σ)) :=
  .bind (installDiagnosticsFrom_work h) fun _ => .bind console_work fun sink =>
    .bind (putLine_work sink _) fun _ => .pure _

end System

/-! ### Errors -/

section

variable {s : ErrorSite σ} (table : Inner s.table) (trace : Inner s.trace)

namespace ErrorSite

include table in
theorem console_work : Work may s.console :=
  .bind (.read table.get_advance) fun _ => .ite platformConsole_work (.pure _)

include table in
theorem currentHart_work : Work may s.currentHart :=
  .bind (.read table.get_advance) fun _ => .ite (.change .platform _) (.pure 0)

include table in
theorem hasFirmware_work : Work may s.hasFirmware :=
  .bind (.read table.get_advance) fun _ => .look (fun _ _ _ => rfl) fun _ => .pure _

include table in
theorem locked_work {body refused : Exec σ α} (hbody : Work may body)
    (hrefused : Work may refused) : Work may (s.locked body refused) :=
  .bind (currentHart_work table) fun core => .withLock (table.comp _) hbody hrefused core

include table in
theorem register_work (p : ErrorProposal) : Work may (s.register p) :=
  .ite (.pure _) (locked_work table (.change table _) (.pure _))

include table in
theorem unregister_work (description : Text) : Work may (s.unregister description) :=
  locked_work table (.change table _) (.pure _)

include table in
theorem create_work (source : Source) (level : Level) (code : UInt16) (address : Option UInt64)
    (instruction : UInt64) : Work may (s.create source level code address instruction) :=
  .bind (hasFirmware_work table) fun _ =>
    .ite (.bind (.change .platform _) fun _ => .pure _) (.bind (.pure 0) fun _ => .pure _)

include table in
theorem record_work (e : SystemError) (outcome : ErrorOutcome) : Work may (s.record e outcome) :=
  locked_work table (.update (table.comp _) _) (.pure ())

include table in
theorem clearLog_work : Work may s.clearLog :=
  locked_work table (.update (table.comp _) _) (.pure ())

include table in
theorem printLog_work (count : Nat) : Work may (s.printLog count) := by
  have hlog : Inner s.log := table.comp _
  have hfrom (sink : Sink) (count i : Nat) : Work may (ErrorLog.printFrom s.log sink count i) := by
    induction count generalizing i with
    | zero => exact .pure ()
    | succ count ih =>
      refine .bind (.read hlog.get_advance) fun l => ?_
      split
      · exact .pure ()
      · exact .bind (putLine_work sink _) fun _ => ih (i + 1)
  have hprint (sink : Sink) : Work may (ErrorLog.print s.log count sink) := by
    cases sink with
    | nowhere => exact .pure ()
    | console =>
      exact .bind (.read hlog.get_advance) fun l => .ite (puts_work .console _)
        (.bind (putLine_work .console _) fun _ => hfrom .console _ _)
  exact locked_work table (.bind (console_work table) hprint) (.pure ())

include table in
theorem print_work : Work may s.print := by
  refine .bind (console_work table) fun sink => locked_work table ?_ (.pure ())
  exact .bind (.read table.get_advance) fun t => .bind (putLine_work sink _) fun _ =>
    .forM fun _ _ => putLine_work sink _

include table in
theorem takers_work (e : SystemError) (sink : Sink) : Work may (s.takers e sink) :=
  locked_work table (.bind (.read table.get_advance) fun _ => .pure _)
    (.bind (putLine_work sink _) fun _ => .pure [])

theorem sleepFor_work (rounds : Nat) : Work may (sleepFor (σ := σ) (α := α) rounds) := by
  induction rounds with
  | zero => exact .throw _
  | succ rounds ih =>
    exact .bind (.change .platform _) fun _ =>
      .bind (.bind (.change .platform _) fun _ => .ite (.throw _) (.pure ())) fun _ => ih

include table in
theorem sleepForGood_work : Work may (s.sleepForGood (α := α)) := by
  refine .bind (.read table.get_advance) fun _ => .ite (.look (fun _ _ _ => rfl) fun m => ?_)
    (.throw _)
  split
  · exact sleepFor_work _
  · exact .throw _

include table in
theorem halt_work (e : SystemError) : Work may (s.halt (α := α) e) := by
  have hshutDown : Work may (shutDown (σ := σ) (α := PUnit) 1) :=
    .bind (.update .platform _) fun _ => .throw _
  exact .bind (console_work table) fun sink => .bind (putLine_work sink _) fun _ =>
    .bind (printLog_work table _) fun _ => .bind (hasFirmware_work table) fun _ =>
      .ite (.bind hshutDown fun _ => sleepForGood_work table) (sleepForGood_work table)

include table in
theorem conclude_work (e : SystemError) (sink : Sink) (outcome : ErrorOutcome) :
    Work may (s.conclude e sink outcome) :=
  .bind (record_work table e _) fun _ => .bind (putLine_work sink _) fun _ =>
    .ite (.bind (halt_work (α := PUnit) table e) fun _ => .pure _) (.pure _)

include table trace in
theorem note_work (kind : EventKind) (name : Text) (value : UInt64) :
    Work may (s.note kind name value) :=
  .bind (.read table.get_advance) fun _ =>
    .ite (.bind (traceEvent_work trace kind name value) fun _ => .pure ()) (.pure ())

include table trace in
theorem receive_work (e : SystemError) : Work may (s.receive e) := by
  have hlatch (sink : Sink) : Work may (s.latch e sink) :=
    .bind (.update table _) fun _ => .bind (note_work table trace _ _ _) fun _ =>
      putLine_work sink _
  refine .bind (console_work table) fun sink => .bind (note_work table trace _ _ _) fun _ =>
    .bind (.read table.get_advance) fun _ => .ite ?_ ?_
  · exact .bind (record_work table e _) fun _ => .bind (putLine_work sink _) fun _ => .pure none
  · exact .ite (.bind (hlatch sink) fun _ => .pure _) (.pure _)

end ErrorSite

theorem ErrorHandler.run_work (h : ErrorHandler) (e : SystemError) :
    Work may (h.run (σ := σ) e) := by
  have hline (sink : Sink) (pieces : List Text) (o : ErrorOutcome) : Work may (do
      putLine (σ := σ) sink pieces
      return o) := .bind (putLine_work sink pieces) fun _ => .pure o
  refine .bind System.console_work fun sink => ?_
  cases h with
  | memory => exact .ite (hline _ _ _) (.ite (hline _ _ _) (.ite (hline _ _ _) (hline _ _ _)))
  | interrupt => exact hline _ _ _
  | process => exact hline _ _ _
  | syscall => exact hline _ _ _
  | fatalDiagnostics =>
    exact .look (fun _ _ _ => rfl) fun m => .bind (putLine_work sink _) fun _ =>
      .bind (ErrorSite.printLog_work .errors 5) fun _ => .pure _
  | client n => exact .handler n e

namespace ErrorSite

theorem offer_work (e : SystemError) (entries : List ErrorEntry) (before : ErrorOutcome) :
    Work may (offer (σ := σ) e entries before) := by
  induction entries generalizing before with
  | nil => exact .pure before
  | cons x entries ih =>
    refine .bind (x.handler.run_work e) fun o => ?_
    cases o with
    | handled => exact .pure _
    | _ => exact ih _

include table trace in
theorem handle_work (e : SystemError) : Work may (s.handle e) := by
  refine .bind (receive_work table trace e) fun received => ?_
  cases received with
  | none => exact .pure _
  | some sink =>
    exact .bind (takers_work table e sink) fun entries => .bind (offer_work e entries _) fun o =>
      conclude_work table e sink o

end ErrorSite

end

/-! ### The set-up of the system -/

theorem System.installErrors_work : Work may (installErrors (σ := σ)) :=
  .forM fun _ _ => .bind (ErrorSite.register_work .errors _) fun _ =>
    .ite (.bind console_work fun sink => putLine_work sink _) (.pure _)

theorem System.ignoreRequest_work : Work may (ignoreRequest (σ := σ)) :=
  .bind platformConsole_work fun sink => putLine_work sink _

theorem System.setUp_work (mode : TrapMode)
    (h : ∀ d ∈ basicHandlers, may (.add d.1 ⟨some (.basic d.2.1), some d.2.2, {}⟩)) :
    Work may (setUp (σ := σ) mode) := by
  have htotal : Work may (countHandlers (σ := σ)) :=
    locked_work (.bind (.read fun _ _ _ => rfl) fun _ => .pure _) (.pure 0)
  have hattach : Work may (modify fun m : Machine σ =>
      { m with system := (attach mode m.platform m.system).1
               platform := (attach mode m.platform m.system).2 }) :=
    .inner (fun _ _ _ => rfl) fun _ => rfl
  refine .bind hattach fun _ => ?_
  refine .look (fun _ _ _ => rfl) fun _ => .look (fun _ _ _ => rfl) fun _ => ?_
  refine .ite (.bind (installBasic_work h) fun _ => ?_) ?_
  all_goals refine .ite (.bind installErrors_work fun _ => ?_) ?_
  all_goals
    exact .bind htotal fun _ => .look (fun _ _ _ => rfl) fun _ =>
      .bind console_work fun sink => putLine_work sink _

end Supervisor
