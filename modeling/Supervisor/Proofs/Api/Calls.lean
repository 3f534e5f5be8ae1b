/-
Calls of the interface.

* `Api.Call` — a call of the interface, with its arguments; everything but the request to start;
* `Api.Call.perform`, `Api.Answer` — what it does, and what it answers;
* `Api.Call.asks` — the changes of the registry that it may make;
* `Api.Call.perform_work` — what a call is made of, unless it draws a number.

Design notes: the two calls that draw a number are the only ones that do not look at whether the
system is ready.
-/
import Supervisor.Proofs.Work

namespace Supervisor

open Registry (Change)

variable {σ α : Type}

namespace Api

/-- A call of the interface. -/
inductive Call where
  | isReady
  | register (t : TrapType) (handler : Option TrapHandler) (priority : UInt8)
    (description : Option Text) (context : Option ContextId)
  | registerOwned (t : TrapType) (handler : Option TrapHandler) (priority : UInt8)
    (description : Option Text) (context : Option ContextId) (registrar : Registrar)
  | unregister (t : TrapType) (description : Text)
  | unregisterOwned (t : TrapType) (description : Text) (registrar : Registrar)
  | purge (context : ContextId)
  | unregisterBound (context : ContextId) (registrar : Registrar)
  | handlerCount (t : TrapType)
  | printHandlers
  | installDiagnostics
  | enableInterrupts
  | disableInterrupts
  | restoreInterrupts (wasEnabled : Bool)
  | enableInterrupt (i : Interrupt)
  | disableInterrupt (i : Interrupt)
  | interruptEnabled (i : Interrupt)
  | interruptPending (i : Interrupt)
  | raiseSoftware
  | clearSoftware
  | nestLevel
  | inTrap
  | stackUsage
  | newContextId
  | newRegistrar
  | registerError (p : ErrorProposal)
  | unregisterError (description : Text)
  | createError (source : Source) (level : Level) (code : UInt16) (address : Option UInt64)
    (instruction : UInt64)
  | isPanicMode
  | resetPanicMode
  | handleError (e : SystemError)
  | printErrorLog (count : Nat)
  | clearErrorLog
  | printErrorHandlers
  | createTask (entry userStack : UInt64)
  | switchTask (current next : Option Task)
deriving DecidableEq

/-- What a call answers. -/
inductive Answer where
  | nothing
  | status (s : ApiStatus)
  | flag (b : Bool)
  | count (n : Nat)
  | number (n : UInt64)
  | removal (s : ApiStatus) (removed : Nat)
  | usage (used : Option (Nat × Nat))
  | error (e : Option SystemError)
  | report (s : ApiStatus) (outcome : ErrorOutcome)
  | frame (f : Except ApiStatus Frame)
  | image (s : ApiStatus) (task : Option Task)
deriving DecidableEq

/-- An action whose result is put into an answer. -/
def answering (x : Exec σ α) (f : α → Answer) : Exec σ Answer := do return f (← x)

namespace Call

/-- Makes the call. -/
def perform [Client σ] : Call → Exec σ Answer
  | isReady => answering Api.isReady .flag
  | register t handler priority description context =>
    answering (Api.register t handler priority description context) .status
  | registerOwned t handler priority description context registrar =>
    answering (Api.registerOwned t handler priority description context registrar) .status
  | unregister t description => answering (Api.unregister t description) .status
  | unregisterOwned t description registrar =>
    answering (Api.unregisterOwned t description registrar) .status
  | purge context => answering (Api.purge context) fun (s, n) => .removal s n
  | unregisterBound context registrar =>
    answering (Api.unregisterBound context registrar) fun (s, n) => .removal s n
  | handlerCount t => answering (Api.handlerCount t) .count
  | printHandlers => answering Api.printHandlers fun _ => .nothing
  | installDiagnostics => answering Api.installDiagnostics .status
  | enableInterrupts => answering Api.enableInterrupts .flag
  | disableInterrupts => answering Api.disableInterrupts .flag
  | restoreInterrupts wasEnabled => answering (Api.restoreInterrupts wasEnabled) fun _ => .nothing
  | enableInterrupt i => answering (Api.enableInterrupt i) .status
  | disableInterrupt i => answering (Api.disableInterrupt i) .status
  | interruptEnabled i => answering (Api.interruptEnabled i) .flag
  | interruptPending i => answering (Api.interruptPending i) .flag
  | raiseSoftware => answering Api.raiseSoftware .status
  | clearSoftware => answering Api.clearSoftware .status
  | nestLevel => answering Api.nestLevel .count
  | inTrap => answering Api.inTrap .flag
  | stackUsage => answering Api.stackUsage .usage
  | newContextId => answering Supervisor.newContextId .number
  | newRegistrar => answering Supervisor.newRegistrar .number
  | registerError p => answering (Api.registerError p) .status
  | unregisterError description => answering (Api.unregisterError description) .status
  | createError source level code address instruction =>
    answering (Api.createError source level code address instruction) .error
  | isPanicMode => answering Api.isPanicMode .flag
  | resetPanicMode => answering Api.resetPanicMode .status
  | handleError e => answering (Api.handleError e) fun (s, o) => .report s o
  | printErrorLog count => answering (Api.printErrorLog count) fun _ => .nothing
  | clearErrorLog => answering Api.clearErrorLog fun _ => .nothing
  | printErrorHandlers => answering Api.printErrorHandlers fun _ => .nothing
  | createTask entry userStack => answering (Api.createTask entry userStack) .frame
  | switchTask current next =>
    answering (Api.switchTask current next) fun (s, task) => .image s task

/-- Whether the call draws a number. -/
def draws : Call → Bool
  | newContextId | newRegistrar => true
  | _ => false

/-- The changes of the registry that the call may make. -/
def asks : Call → List Change
  | register t handler priority description context =>
    [.add t ⟨handler, description, ⟨priority, .system, kernelRegistrar, context⟩⟩]
  | registerOwned t handler priority description context registrar =>
    if registrar = kernelRegistrar ∨ priority < diagnosticPriority then []
    else [.add t ⟨handler, description, ⟨priority, .user, registrar, context⟩⟩]
  | unregister t description => [.remove t description kernelRegistrar]
  | unregisterOwned t description registrar => [.remove t description registrar]
  | purge context => [.purge context]
  | unregisterBound context registrar => [.removeBound context registrar]
  | installDiagnostics =>
    System.diagnosticHandlers.map fun d => .add d.1
      ⟨some (.diagnostic d.2.1), some d.2.2, { priority := diagnosticPriority }⟩
  | _ => []

/-- A registrar asks only for what is not reserved to the kernel. -/
theorem asks_registerOwned (t : TrapType) (handler : Option TrapHandler) (priority : UInt8)
    (description : Option Text) (context : Option ContextId) (g : Registrar) :
    (registerOwned t handler priority description context g).asks =
      if g = kernelRegistrar ∨ priority < diagnosticPriority then []
      else [.add t ⟨handler, description, ⟨priority, .user, g, context⟩⟩] := rfl

end Call

/-! ### What calls are made of -/

variable [Client σ] {may : Change → Prop}

theorem isReady_work : Work may (isReady (σ := σ)) := .look (fun _ _ _ => rfl) fun _ => .pure _

theorem whenReady_work {otherwise : α} {body : Exec σ α} (h : Work may body) :
    Work may (whenReady otherwise body) := .bind isReady_work fun _ => .ite h (.pure _)

theorem registerOn_work {t : TrapType} {p : Proposal} (h : may (.add t p)) :
    Work may (registerOn (σ := σ) t p) :=
  .bind (System.register_work h) fun _ => .ite
    (.bind System.console_work fun sink => .bind (putLine_work sink _) fun _ => .pure _) (.pure _)

/-- What changes the registers of the hart only. -/
theorem control_work (f : InterruptControl → Csrs → α × Csrs) : Work may (control (σ := σ) f) :=
  .inner (fun _ _ _ => rfl) fun _ => rfl

theorem inspect_work (f : InterruptControl → Csrs → α) : Work may (inspect (σ := σ) f) :=
  .look (fun _ _ _ => rfl) fun _ => .pure _

theorem controlLine_work (f : InterruptControl → Csrs → Csrs) :
    Work may (controlLine (σ := σ) f) :=
  whenReady_work (.look (fun _ _ _ => rfl) fun _ => .ite (control_work _) (.pure _))

theorem nestLevel_work : Work may (nestLevel (σ := σ)) :=
  whenReady_work (.look (fun _ _ _ => rfl) fun _ => .pure _)

theorem switchTasks_work {ι : Type} [DecidableEq ι] (memory : Tasks ι) (current next : Option ι) :
    Work may (switchTasks (σ := σ) memory current next) := by
  refine whenReady_work (.bind (.read fun _ _ _ => rfl) fun n => .bind ?_ fun switched => ?_)
  · unfold switchImages
    split
    · exact .ite (.change .platform _) (.pure _)
    · exact .pure _
  · cases switched with
    | ok saved => exact .pure _
    | error e =>
      exact .bind System.console_work fun sink => .bind (putLine_work sink _) fun _ => .pure _

theorem switchTask_work (current next : Option Task) :
    Work may (switchTask (σ := σ) current next) := .bind (switchTasks_work _ _ _) fun _ => .pure _

theorem answering_work {x : Exec σ α} (h : Work may x) (f : α → Answer) :
    Work may (answering x f) := .bind h fun _ => .pure _

theorem unregisterBound_work {context : ContextId} {g : Registrar}
    (h : may (.removeBound context g)) : Work may (unregisterBound (σ := σ) context g) :=
  whenReady_work (.ite (.pure _)
    (.bind (System.unregisterBound_work h) fun _ => .ite (.pure _) (.pure _)))

theorem registerOwned_work {t : TrapType} {handler : Option TrapHandler} {priority : UInt8}
    {description : Option Text} {context : Option ContextId} {g : Registrar}
    (h : ∀ c ∈ (Call.registerOwned t handler priority description context g).asks, may c) :
    Work may (registerOwned (σ := σ) t handler priority description context g) := by
  refine whenReady_work ?_
  rw [Call.asks_registerOwned] at h
  by_cases hkernel : g = kernelRegistrar
  · rw [if_pos hkernel]
    exact .pure _
  · rw [if_neg hkernel]
    by_cases hpriority : priority < diagnosticPriority
    · rw [if_pos hpriority]
      exact .pure _
    · rw [if_neg hpriority]
      rw [if_neg (not_or.2 ⟨hkernel, hpriority⟩)] at h
      exact registerOn_work (h _ (List.mem_singleton_self _))

/-- What a call is made of, unless it draws a number. -/
theorem Call.perform_work {c : Call} (hdraws : c.draws = false) (h : ∀ x ∈ c.asks, may x) :
    Work may (c.perform (σ := σ)) := by
  have hone {x : Change} (hx : c.asks = [x]) : may x := h x (hx ▸ List.mem_singleton_self x)
  cases c with
  | isReady => exact answering_work isReady_work _
  | register => exact answering_work (whenReady_work (registerOn_work (hone rfl))) _
  | registerOwned => exact answering_work (registerOwned_work h) _
  | unregister =>
    exact answering_work (whenReady_work (.bind (System.unregister_work (hone rfl)) fun _ =>
      .pure _)) _
  | unregisterOwned =>
    exact answering_work (whenReady_work (.bind (System.unregister_work (hone rfl)) fun _ =>
      .pure _)) _
  | purge =>
    exact answering_work (whenReady_work (.bind (System.purge_work (hone rfl)) fun _ =>
      .pure _)) _
  | unregisterBound => exact answering_work (unregisterBound_work (hone rfl)) _
  | handlerCount t => exact answering_work (whenReady_work (System.handlerCount_work t)) _
  | printHandlers => exact answering_work (whenReady_work System.printHandlers_work) _
  | installDiagnostics =>
    refine answering_work (whenReady_work (.bind (System.installDiagnostics_work ?_) fun _ =>
      .pure _)) _
    exact fun d hd => h _ (List.mem_map_of_mem hd)
  | enableInterrupts => exact answering_work (whenReady_work (control_work _)) _
  | disableInterrupts => exact answering_work (whenReady_work (control_work _)) _
  | restoreInterrupts => exact answering_work (whenReady_work (control_work _)) _
  | enableInterrupt => exact answering_work (controlLine_work _) _
  | disableInterrupt => exact answering_work (controlLine_work _) _
  | interruptEnabled => exact answering_work (whenReady_work (inspect_work _)) _
  | interruptPending => exact answering_work (whenReady_work (inspect_work _)) _
  | raiseSoftware => exact answering_work (controlLine_work _) _
  | clearSoftware => exact answering_work (controlLine_work _) _
  | nestLevel => exact answering_work nestLevel_work _
  | inTrap => exact answering_work (.bind nestLevel_work fun _ => .pure _) _
  | stackUsage =>
    exact answering_work (whenReady_work (.bind System.currentHart_work fun _ =>
      .look (fun _ _ _ => rfl) fun _ => .pure _)) _
  | newContextId => cases hdraws
  | newRegistrar => cases hdraws
  | registerError p =>
    exact answering_work (whenReady_work (.bind (ErrorSite.register_work .errors p) fun _ =>
      .pure _)) _
  | unregisterError description =>
    exact answering_work (whenReady_work (.bind (ErrorSite.unregister_work .errors description)
      fun _ => .pure _)) _
  | createError =>
    exact answering_work (whenReady_work (.bind (ErrorSite.create_work .errors _ _ _ _ _) fun _ =>
      .pure _)) _
  | isPanicMode =>
    exact answering_work (whenReady_work (.bind (.read fun _ _ _ => rfl) fun _ => .pure _)) _
  | resetPanicMode =>
    exact answering_work (whenReady_work (.bind (.update .errors _) fun _ => .pure _)) _
  | handleError e =>
    exact answering_work (whenReady_work (.bind (ErrorSite.handle_work .errors .trace e) fun _ =>
      .pure _)) _
  | printErrorLog count =>
    exact answering_work (whenReady_work (ErrorSite.printLog_work .errors count)) _
  | clearErrorLog => exact answering_work (whenReady_work (ErrorSite.clearLog_work .errors)) _
  | printErrorHandlers => exact answering_work (whenReady_work (ErrorSite.print_work .errors)) _
  | createTask =>
    exact answering_work (whenReady_work (.ite (.bind (.pure _) fun _ => .pure _)
      (.look (fun _ _ _ => rfl) fun _ => .pure _))) _
  | switchTask current next => exact answering_work (switchTask_work current next) _

end Api

end Supervisor
