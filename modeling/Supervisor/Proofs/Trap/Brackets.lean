/-
The beginnings and ends of traps in the trace.

Every trap notes its beginning and its end.  What the trace tells of them is well nested, as long as
nobody turns tracing off, empties the trace or notes such an event on his own.

* `takeTrap_course` — a trap that returned is one episode;
* `Deed` — what handlers, observers and handlers of errors may do: traps among other things;
* `Deed.traceable` — whatever of this returns has a course;
* `takeTraps_course` — a series of traps that returned is a series of episodes;
* `trap_trace_is_well_nested` — what the trace tells of such a series.

Design notes: the handlers of a trap that is taken within another one are a client of their own, so
traps nest as deep as there are clients.
-/
import Supervisor.Proofs.Trap.Traceable

namespace Supervisor

variable {σ α : Type}

/-! ### One trap -/

section

variable [Client σ] (written : ∀ text, Exec.Traceable (Client.written (σ := σ) text))

include written

theorem prepare_traceable (f : Frame) : Exec.Traceable (prepare (σ := σ) f) := by
  have hannounce (sink : Sink) : Exec.Traceable (announceTrap (σ := σ) f.trapType f sink) :=
    .bind .get fun _ => .ite (putLine_traceable written sink _) (.pure ())
  have hentries (sink : Sink) : Exec.Traceable (entriesFor (σ := σ) f.trapType sink) := by
    refine .bind (System.locked_traceable (.bind (.read _) fun _ => .pure _) (.pure none))
      fun found => ?_
    cases found with
    | some entries => exact .pure entries
    | none => exact .bind (putLine_traceable written sink _) fun _ => .pure []
  exact .bind (.quiet System.console_keeps) fun sink => .bind (hannounce sink) fun _ =>
    .bind (hentries sink) fun _ => .pure _

theorem resort_traceable (t : TrapType) (v : Verdict) :
    TrapExec.Traceable (resort (σ := σ) t v) := .ite (.pure ()) (fallback_traceable written t)

variable (handlers : ∀ n, TrapExec.Traceable (Client.trapHandler (σ := σ) n))

include handlers

theorem Entry.offer_traceable (t : TrapType) (sink : Sink) (e : Entry) :
    TrapExec.Traceable (e.offer (σ := σ) t sink) := by
  have hreport (v : Verdict) : Exec.Traceable (e.report (σ := σ) t sink v) := by
    cases v with
    | failed error => exact putLine_traceable written sink _
    | handled | pass => exact .pure ()
  exact .bind (e.handler.run_traceable written handlers) fun v =>
    .bind (.onMachine (hreport v)) fun _ => .pure v

/-- Calls made one after the other each have a course. -/
theorem exists_courses {t : TrapType} {sink : Sink} {s s' : TrapState σ}
    {calls : List (Call Entry Verdict (TrapState σ))}
    (linked : Linked (Entry.Answers t sink) s calls s')
    (enabled : s.2.system.trace.enabled = true) :
    ∃ (events : Call Entry Verdict (TrapState σ) → List TraceEvent)
      (inside : Call Entry Verdict (TrapState σ) → List Episode),
      ∀ c ∈ calls, Course ((c.entry.offer t sink).onFrame c.before.1) c.before.2 (events c)
        (inside c) (c.answer, c.after.1) c.after.2 := by
  have hcourse : ∀ c : Call Entry Verdict (TrapState σ), ∃ events inside,
      c.before.2.system.trace.enabled = true → c.entry.Answers t sink c.before c.answer c.after →
        Course ((c.entry.offer t sink).onFrame c.before.1) c.before.2 events inside
          (c.answer, c.after.1) c.after.2 := by
    intro c
    by_cases h : c.before.2.system.trace.enabled = true ∧
        c.entry.Answers t sink c.before c.answer c.after
    · obtain ⟨events, inside, hc⟩ := c.entry.offer_traceable written handlers t sink c.before.1 h.1
        (Entry.answers_iff.1 h.2)
      exact ⟨events, inside, fun _ _ => hc⟩
    · exact ⟨[], [], fun h₁ h₂ => absurd ⟨h₁, h₂⟩ h⟩
  choose events inside hcourse using hcourse
  refine ⟨events, inside, ?_⟩
  -- tracing is still enabled when the next call is made
  induction linked with
  | nil s => exact List.forall_mem_nil _
  | cons head tail ih =>
    have hhead := hcourse ⟨_, _, _, _⟩ enabled head
    exact List.forall_mem_cons.2 ⟨hhead, ih ((hhead.tells enabled).enabled enabled)⟩

/-- A trap that returned was begun, offered to its entries and ended. -/
theorem takeTrap_course {f f' : Frame} {m m' : Machine σ}
    (enabled : m.system.trace.enabled = true)
    (returned : Exec.runOn (takeTrap.onFrame f) m = (.ok ((), f'), m')) :
    ∃ events answers inside,
      Course (takeTrap.onFrame f) m events [⟨f, answers, inside⟩] ((), f') m' := by
  have htrap := TrapExec.runOn_onFrame_eq_ok.1 returned
  -- before the start of the system a trap panics
  have ready : m.system.ready = true := by
    by_contra hno
    have hcheck : TrapExec.runOn (getThe (Machine σ) : TrapExec σ (Machine σ)) f m =
        ((.ok m, f), m) := rfl
    rw [takeTrap, TrapExec.runOn_bind_of_ok hcheck, if_neg hno] at htrap
    cases congrArg (·.1.1) htrap
  rw [runOn_takeTrap ready] at htrap
  obtain ⟨core, f₁, m₁, hrun, htrap⟩ := TrapExec.of_runOn_bind_eq_ok htrap
  obtain ⟨rfl, hstart⟩ := TrapExec.onMachine_eq_ok hrun
  obtain ⟨⟨sink, entries⟩, f₂, m₂, hrun, htrap⟩ := TrapExec.of_runOn_bind_eq_ok htrap
  obtain ⟨rfl, hprepare⟩ := TrapExec.onMachine_eq_ok hrun
  obtain ⟨v, f₃, m₃, hdispatch, htrap⟩ := TrapExec.of_runOn_bind_eq_ok htrap
  obtain ⟨_, f₄, m₄, hresort, htrap⟩ := TrapExec.of_runOn_bind_eq_ok htrap
  obtain ⟨rfl, hclose⟩ := TrapExec.onMachine_eq_ok htrap
  -- tracing stays enabled from one part to the next
  obtain ⟨time, hbegin⟩ := startTrap_extends enabled hstart
  have henabled₁ : m₁.system.trace.enabled = true := by
    rw [hbegin, Trace.enabled_extend, enabled]
  obtain ⟨before, early, hprepared⟩ := prepare_traceable written f₂ henabled₁ hprepare
  have henabled₂ := (hprepared.tells henabled₁).enabled henabled₁
  obtain ⟨calls, hlinked, hupTo, rfl⟩ :=
    @walk_of_dispatch σ _ _ _ _ _ (f₂, m₂) (f₃, m₃) hdispatch
  obtain ⟨events, inside, heach⟩ := exists_courses written handlers hlinked henabled₂
  have henabled₃ : m₃.system.trace.enabled = true :=
    (Tells.of_linked hlinked (fun c hc => (heach c hc).tells) henabled₂).enabled henabled₂
  obtain ⟨after, late, hresorted⟩ := resort_traceable written f₂.trapType (verdictOf calls) f₃
    henabled₃ (TrapExec.runOn_onFrame_eq_ok.2 hresort)
  have henabled₄ := (hresorted.tells henabled₃).enabled henabled₃
  obtain ⟨time', hend⟩ := closeTrap_extends henabled₄ hclose
  exact ⟨_, _, _, .trap _ ready ⟨hstart, hbegin⟩ hprepared hlinked hupTo heach hresorted
    ⟨hclose, hend⟩⟩

theorem takeTrap_traceable : TrapExec.Traceable (takeTrap (σ := σ)) := by
  intro f m r m' enabled returned
  obtain ⟨events, _, _, hcourse⟩ := takeTrap_course written handlers enabled returned
  exact ⟨events, _, hcourse⟩

end

/-! ### What handlers may do -/

/-- What handlers of traps and of errors and observers may do.  They may do anything that leaves the
trace alone, and note events that tell of no trap.  They may change the registry and list it, report
errors, and take traps, whose handlers and observers may do the same. -/
inductive Deed : {α : Type} → Exec σ α → Prop
  | own {α : Type} {x : Exec σ α} (keeps : Exec.Keeps x (·.system.trace)) : Deed x
  | note {kind : EventKind} (other : kind.isMark = false) (name : Text) (value : UInt64) :
      Deed (System.note kind name value)
  | register (t : TrapType) (p : Proposal) : Deed (System.register t p)
  | unregister (t : TrapType) (description : Text) (registrar : Registrar) :
      Deed (System.unregister t description registrar)
  | unregisterBound (context : ContextId) (registrar : Registrar) :
      Deed (System.unregisterBound context registrar)
  | purge (context : ContextId) : Deed (System.purge context)
  | print (client : Client σ) (written : ∀ text, Deed (client.written text)) :
      Deed (@System.printHandlers σ client)
  | report (client : Client σ) (written : ∀ text, Deed (client.written text))
      (handlers : ∀ n e, Deed (client.errorHandler n e)) (e : SystemError) :
      Deed (@ErrorSite.handle σ client ErrorSite.system e)
  | trap (client : Client σ) (written : ∀ text, Deed (client.written text))
      (handlers : ∀ n f, Deed ((client.trapHandler n).onFrame f)) (f : Frame) :
      Deed ((@takeTrap σ client).onFrame f)
  | bind {α β : Type} {x : Exec σ α} {k : α → Exec σ β} (first : Deed x)
      (next : ∀ a, Deed (k a)) : Deed (x >>= k)
  | thenFinally {α : Type} {x : Exec σ α} {g : Machine σ → Machine σ} (body : Deed x)
      (keeps : ∀ m, (g m).system.trace = m.system.trace) : Deed (x.finally g)

/-- Whatever is done of this has a course, if it returns. -/
theorem Deed.traceable {x : Exec σ α} (h : Deed x) : x.Traceable := by
  induction h with
  | own keeps => exact .quiet keeps
  | note other name value => exact .note other name value
  | register t p => exact System.register_traceable t p
  | unregister t description registrar => exact System.unregister_traceable t description registrar
  | unregisterBound context registrar => exact System.unregisterBound_traceable context registrar
  | purge context => exact System.purge_traceable context
  | print client _ written =>
    let _ := client
    exact System.printHandlers_traceable written
  | report client _ _ e written handlers =>
    let _ := client
    exact ErrorSite.handle_traceable written handlers e
  | trap client _ _ f written handlers =>
    let _ := client
    exact takeTrap_traceable written handlers f
  | bind _ _ hx hk => exact .bind hx hk
  | thenFinally _ keeps hx => exact .thenFinally hx keeps

/-! ### A series of traps -/

variable [Client σ]

/-- Takes traps one after the other. -/
def takeTraps (frames : List Frame) : Exec σ Unit :=
  frames.forM fun f => do
    let _ ← takeTrap.onFrame f

/-- A series of traps that returned is a series of episodes. -/
theorem takeTraps_course (written : ∀ text, Exec.Traceable (Client.written (σ := σ) text))
    (handlers : ∀ n, TrapExec.Traceable (Client.trapHandler (σ := σ) n)) {frames : List Frame}
    {m m' : Machine σ} (enabled : m.system.trace.enabled = true)
    (returned : Exec.runOn (takeTraps frames) m = (.ok (), m')) :
    ∃ events episodes, Course (takeTraps frames) m events episodes () m' ∧
      episodes.map (·.frame) = frames := by
  -- tracing is still enabled when the next trap is taken
  induction frames generalizing m with
  | nil =>
    obtain rfl := congrArg Prod.snd returned
    exact ⟨[], [], .quiet rfl rfl, rfl⟩
  | cons f frames ih =>
    obtain ⟨_, m₁, hfirst, hrest⟩ := Exec.of_runOn_bind_eq_ok returned
    obtain ⟨⟨_, f'⟩, m₂, htrap, hend⟩ := Exec.of_runOn_bind_eq_ok hfirst
    obtain rfl : m₂ = m₁ := congrArg Prod.snd hend
    obtain ⟨events, answers, inside, hone⟩ := takeTrap_course written handlers enabled htrap
    obtain ⟨events', episodes, hmany, hframes⟩ := ih ((hone.tells enabled).enabled enabled) hrest
    have hdone : Course (takeTrap.onFrame f >>= fun _ => (pure () : Exec σ Unit)) m (events ++ [])
        ([⟨f, answers, inside⟩] ++ []) () m₂ := hone.bind (.quiet rfl rfl)
    exact ⟨_, _, hdone.bind hmany, congrArg (f :: ·) hframes⟩

/-- **The trace tells of beginnings and ends that are well nested.**  Let the handlers and the
observers take traps of their own to any depth, change the registry, report errors and do whatever
leaves the trace alone.  Let a series of traps return, with tracing enabled at first.  Then the run
has a course, which gives each trap that was taken an episode of its own, within that of the trap in
which it was taken.  The outermost ones are those of the series, in order.

The trace took the events of the course.  Those of them that tell of a beginning or of an end are
the word of the episodes.  Each beginning has the cause in the frame at that moment, and the end
that belongs to it has the same type, whatever became of the frame.  The value of the end is one
exactly if one of the handlers that were called for the trap handled it. -/
theorem trap_trace_is_well_nested
    (handlers : ∀ n f, Deed (TrapExec.onFrame (Client.trapHandler (σ := σ) n) f))
    (observers : ∀ text, Deed (Client.written (σ := σ) text)) {frames : List Frame}
    {m m' : Machine σ} (enabled : m.system.trace.enabled = true)
    (returned : Exec.runOn (takeTraps frames) m = (.ok (), m')) :
    ∃ events episodes, Course (takeTraps frames) m events episodes () m' ∧
      episodes.map (·.frame) = frames ∧
      m'.system.trace = m.system.trace.extend events ∧
      marks events = Episode.words episodes := by
  obtain ⟨events, episodes, hcourse, hframes⟩ := takeTraps_course
    (fun text => (observers text).traceable) (fun n f => (handlers n f).traceable) enabled returned
  obtain ⟨htrace, hmarks⟩ := hcourse.tells enabled
  exact ⟨events, episodes, hcourse, hframes, htrace, hmarks⟩

/-- A client that takes traps within others. -/
inductive Nester where
  | here

namespace Nester

/-- A client that passes every trap on. -/
@[reducible] def onlooker : Client Nester where
  trapHandler _ := return .pass
  errorHandler _ _ := return .unhandled
  command _ _ _ := return 0
  written _ := return

/-- The frame of a system call. -/
def systemCall : Frame where
  scause := 8

/-- The frame of a breakpoint. -/
def breakpoint : Frame where
  scause := 3

/-- What is done within a breakpoint. -/
def meanwhile : Exec Nester Unit := do
  let _ ← System.register .systemCall ⟨some (.client 0), some "late", {}⟩
  let _ ← @ErrorSite.handle Nester onlooker ErrorSite.system
    ⟨ErrorCode.make .memory .error 3, none, 0, 0⟩
  let _ ← (@takeTrap Nester onlooker).onFrame systemCall
  let _ ← System.unregister .systemCall "late" 0

/-- A client that does this in every handler, makes the frame that of another trap and claims the
trap. -/
instance : Client Nester where
  trapHandler _ := do
    onMachine meanwhile
    modifyThe Frame fun f => { f with scause := 5 }
    return .handled
  errorHandler _ _ := return .unhandled
  command _ _ _ := return 0
  written _ := return

/-- A machine that is ready and traces, with a handler of breakpoints. -/
def machine : Machine Nester where
  system.ready := true
  system.trace.enabled := true
  system.registry := (Registry.add {} .breakpoint ⟨some (.client 0), some "first", {}⟩).2
  clients := .here

/-- What the trace holds of beginnings and ends. -/
def found (m : Machine Nester) : List Mark :=
  marks ((List.range traceCapacity).filterMap m.system.trace.events.get?)

end Nester

theorem meanwhile_deed : Deed Nester.meanwhile := by
  have quiet (text : Text) : Deed (Nester.onlooker.written text) := .own (.pure ())
  unfold Nester.meanwhile
  refine .bind (.register _ _) fun _ => ?_
  refine .bind (.report _ quiet (fun n e => .own (.pure _)) _) fun _ => ?_
  refine .bind (.trap _ quiet (fun n f => .own fun _ => rfl) _) fun _ => ?_
  exact .bind (.unregister _ _ _) fun _ => .own (.pure ())

/-- A system call that is taken within a breakpoint, and that nobody handles, stands between the
beginning and the end of the breakpoint. -/
theorem system_call_within_breakpoint :
    let m' := (Exec.runOn (takeTraps [Nester.breakpoint]) Nester.machine).2
    Nester.found m' = [⟨.trapEnter, "Breakpoint", 3⟩, ⟨.trapEnter, "SystemCall", 8⟩,
      ⟨.trapExit, "SystemCall", 0⟩, ⟨.trapExit, "Breakpoint", 1⟩] ∧
    ∃ events episodes,
      Course (takeTraps [Nester.breakpoint]) Nester.machine events episodes () m' ∧
      episodes.map (·.frame) = [Nester.breakpoint] ∧
      m'.system.trace = Nester.machine.system.trace.extend events ∧
      marks events = Episode.words episodes := by
  intro m'
  refine ⟨by decide +kernel, ?_⟩
  have handlers (n : Nat) (f : Frame) :
      Deed (TrapExec.onFrame (Client.trapHandler (σ := Nester) n) f) := by
    have hhandler : TrapExec.onFrame (Client.trapHandler (σ := Nester) n) f =
        Nester.meanwhile >>= fun _ => pure (.handled, { f with scause := 5 }) := by
      refine (TrapExec.onFrame_bind _ _ f).trans ?_
      rw [TrapExec.onFrame_onMachine, bind_assoc]
      rfl
    rw [hhandler]
    exact .bind meanwhile_deed fun _ => .own (.pure _)
  have observers (text : Text) : Deed (Client.written (σ := Nester) text) := .own (.pure ())
  have hanswer : (Exec.runOn (takeTraps [Nester.breakpoint]) Nester.machine).1 = .ok () := by
    decide +kernel
  have returned : Exec.runOn (takeTraps [Nester.breakpoint]) Nester.machine = (.ok (), m') := by
    rw [← hanswer]
  exact trap_trace_is_well_nested handlers observers rfl returned

end Supervisor
