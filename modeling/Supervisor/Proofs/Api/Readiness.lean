/-
Calls before the start.

As long as the system is not ready, every call of the interface is turned away with an answer that
does no harm, and nothing happens.  Only the numbers for registrars and contexts are given out from
the first moment on.

* `Api.Call.refusal` — the answer of a call that is turned away;
* `Api.earlyAnswers` — the answers of a list of calls, with the numbers that are drawn;
* `calls_are_inert_before_start` — nothing else comes of such calls, neither then nor later.

Design notes: two runs are compared, one with the early calls and one without them.  They do the
same from the start on, except that later draws give later numbers.
-/
import Supervisor.Proofs.Api.Calls
import Supervisor.Proofs.Registry.Access

namespace Supervisor

variable {σ α β : Type}

/-! ### Numbers that were drawn -/

namespace Machine

@[simp] theorem advance_zero (m : Machine σ) : m.advance 0 0 = m := by
  simp only [advance, UInt64.add_zero]

theorem advance_advance (m : Machine σ) (g c g' c' : UInt64) :
    (m.advance g c).advance g' c' = m.advance (g + g') (c + c') := by
  simp only [advance, UInt64.add_assoc]

end Machine

/-! ### Calls that are turned away -/

namespace Api

/-- What a call answers that is turned away because the system is not ready; the calls that draw a
number are not. -/
def Call.refusal : Call → Answer
  | .isReady | .enableInterrupts | .disableInterrupts | .interruptEnabled _ | .interruptPending _
  | .inTrap | .isPanicMode => .flag false
  | .handlerCount _ | .nestLevel => .count 0
  | .printHandlers | .restoreInterrupts _ | .printErrorLog _ | .clearErrorLog
  | .printErrorHandlers | .newContextId | .newRegistrar => .nothing
  | .purge _ | .unregisterBound _ _ => .removal .notReady 0
  | .stackUsage => .usage none
  | .createError .. => .error none
  | .handleError _ => .report .notReady .unhandled
  | .createTask _ _ => .frame (.error .notReady)
  | .switchTask current _ => .image .notReady current
  | .register .. | .registerOwned .. | .unregister .. | .unregisterOwned .. | .installDiagnostics
  | .enableInterrupt _ | .disableInterrupt _ | .raiseSoftware | .clearSoftware | .registerError _
  | .unregisterError _ | .resetPanicMode => .status .notReady

/-- What a call answers as long as the system is not ready. -/
def Call.earlyAnswer (m : Machine σ) : Call → Answer
  | .newContextId => .number m.nextContext
  | .newRegistrar => .number m.nextRegistrar
  | c => c.refusal

/-- How many numbers for registrars a call draws. -/
def Call.registrars : Call → UInt64
  | .newRegistrar => 1
  | _ => 0

/-- How many numbers for contexts a call draws. -/
def Call.contexts : Call → UInt64
  | .newContextId => 1
  | _ => 0

/-- How many numbers for registrars some calls draw. -/
def registrarsDrawn (calls : List Call) : UInt64 := (calls.map Call.registrars).foldr (· + ·) 0

/-- How many numbers for contexts some calls draw. -/
def contextsDrawn (calls : List Call) : UInt64 := (calls.map Call.contexts).foldr (· + ·) 0

/-- What some calls answer as long as the system is not ready. -/
def earlyAnswers : Machine σ → List Call → List Answer
  | _, [] => []
  | m, c :: calls => c.earlyAnswer m :: earlyAnswers (m.advance c.registrars c.contexts) calls

theorem Call.earlyAnswer_of_not_draws {c : Call} (h : c.draws = false) (m : Machine σ) :
    c.earlyAnswer m = c.refusal := by
  cases c <;> first | rfl | cases h

theorem Call.draws_nothing {c : Call} (h : c.draws = false) :
    c.registrars = 0 ∧ c.contexts = 0 := by
  cases c <;> first | exact ⟨rfl, rfl⟩ | cases h

theorem earlyAnswers_getElem? {calls : List Call} {i : Nat} {c : Call} (h : calls[i]? = some c)
    (hdraws : c.draws = false) (m : Machine σ) : (earlyAnswers m calls)[i]? = some c.refusal := by
  induction calls generalizing i m with
  | nil => cases h
  | cons d calls ih =>
    cases i with
    | zero =>
      obtain rfl : d = c := Option.some.inj h
      exact congrArg some (Call.earlyAnswer_of_not_draws hdraws m)
    | succ i => exact ih h _

/-- Only the calls that draw count for the numbers. -/
theorem drawn_filter_draws (calls : List Call) :
    registrarsDrawn (calls.filter Call.draws) = registrarsDrawn calls ∧
      contextsDrawn (calls.filter Call.draws) = contextsDrawn calls := by
  induction calls with
  | nil => exact ⟨rfl, rfl⟩
  | cons c calls ih =>
    obtain ⟨hregistrars, hcontexts⟩ := ih
    by_cases hdraws : c.draws = true
    · rw [List.filter_cons_of_pos hdraws]
      exact ⟨congrArg (c.registrars + ·) hregistrars, congrArg (c.contexts + ·) hcontexts⟩
    · obtain ⟨hg, hc⟩ := Call.draws_nothing (Bool.not_eq_true _ ▸ hdraws)
      rw [List.filter_cons_of_neg hdraws, hregistrars, hcontexts, registrarsDrawn, registrarsDrawn,
        contextsDrawn, contextsDrawn, List.map_cons, List.map_cons, List.foldr_cons,
        List.foldr_cons, hg, hc, UInt64.zero_add, UInt64.zero_add]
      exact ⟨rfl, rfl⟩

theorem runOn_answering {x : Exec σ α} {f : α → Answer} {m m' : Machine σ} {a : α}
    (h : Exec.runOn x m = (.ok a, m')) : Exec.runOn (answering x f) m = (.ok (f a), m') :=
  Exec.runOn_bind_of_ok h

variable [Client σ]

/-- A call that comes too early is turned away, or draws a number. -/
theorem Call.runOn_perform_early {m : Machine σ} (early : m.system.ready = false) (c : Call) :
    Exec.runOn c.perform m = (.ok (c.earlyAnswer m), m.advance c.registrars c.contexts) := by
  have hturned {α : Type} {otherwise : α} {body : Exec σ α} (f : α → Answer) :
      Exec.runOn (answering (whenReady otherwise body) f) m =
        (.ok (f otherwise), m.advance 0 0) := by
    rw [Machine.advance_zero]
    exact runOn_answering (whenReady_of_not_ready early _ _)
  cases c with
  | isReady =>
    have hready : Exec.runOn Api.isReady m = (.ok false, m.advance 0 0) := by
      rw [Machine.advance_zero, ← early]
      rfl
    exact runOn_answering hready
  | inTrap =>
    have hlevel : Exec.runOn Api.nestLevel m = (.ok 0, m.advance 0 0) := by
      rw [Machine.advance_zero]
      exact whenReady_of_not_ready early _ _
    have hbusy : Exec.runOn Api.inTrap m = (.ok false, m.advance 0 0) :=
      Exec.runOn_bind_of_ok hlevel
    exact runOn_answering hbusy
  | newContextId =>
    show _ = (_, { m with nextRegistrar := m.nextRegistrar + 0, nextContext := m.nextContext + 1 })
    rw [UInt64.add_zero]
    rfl
  | newRegistrar =>
    show _ = (_, { m with nextRegistrar := m.nextRegistrar + 1, nextContext := m.nextContext + 0 })
    rw [UInt64.add_zero]
    rfl
  | switchTask current next =>
    have hswitches : Exec.runOn (Api.switchTasks (Side.images current next)
        (current.map fun _ => .outgoing) (next.map fun _ => .incoming)) m =
          (.ok (.notReady, Side.images current next), m) := whenReady_of_not_ready early _ _
    have hswitch : Exec.runOn (Api.switchTask current next) m =
        (.ok (.notReady, current), m.advance 0 0) := by
      rw [Machine.advance_zero, Api.switchTask, Exec.runOn_bind_of_ok hswitches]
      cases current <;> rfl
    exact runOn_answering hswitch
  | _ => exact hturned _

/-- Calls that come too early are turned away, but for the numbers that they draw. -/
theorem runOn_mapM_early {m : Machine σ} (early : m.system.ready = false) (calls : List Call) :
    Exec.runOn (calls.mapM Call.perform) m =
      (.ok (earlyAnswers m calls), m.advance (registrarsDrawn calls) (contextsDrawn calls)) := by
  induction calls generalizing m with
  | nil => rw [List.mapM_nil]; exact congrArg (Prod.mk _) m.advance_zero.symm
  | cons c calls ih =>
    have hrest : (m.advance c.registrars c.contexts).system.ready = false := early
    rw [List.mapM_cons, Exec.runOn_bind_of_ok (c.runOn_perform_early early),
      Exec.runOn_bind_of_ok (ih hrest), Machine.advance_advance]
    rfl

/-- A call that draws no number does not depend on the numbers, if the client does not. -/
theorem Call.perform_blind (written : ∀ text, Exec.Blind (Client.written (σ := σ) text))
    (handlers : ∀ n e, Exec.Blind (Client.errorHandler (σ := σ) n e)) {c : Call}
    (hdraws : c.draws = false) : Exec.Blind (c.perform (σ := σ)) := by
  have hwork : Work (fun _ => True) (c.perform (σ := σ)) :=
    perform_work hdraws fun _ _ => trivial
  exact hwork.blind written handlers

end Api

/-- The start of the system does not depend on the numbers, if the client does not. -/
theorem System.start_blind [Client σ] (written : ∀ text, Exec.Blind (Client.written (σ := σ) text))
    (handlers : ∀ n e, Exec.Blind (Client.errorHandler (σ := σ) n e)) (mode : TrapMode) :
    Exec.Blind (start (σ := σ) mode) := by
  have hclaim : Exec.Blind (claim (σ := σ)) := fun _ _ _ => rfl
  have hpublish : Exec.Blind (publish (σ := σ)) := fun _ _ _ => rfl
  have hsetUp : Work (fun _ => True) (setUp (σ := σ) mode) := setUp_work mode fun _ _ => trivial
  have hwait : Exec.Blind (do
      unless (← getThe (Machine σ)).system.ready do throw .waits : Exec σ Unit) := by
    refine .look (fun _ _ _ => rfl) fun m => ?_
    cases m.system.ready with
    | true => exact .pure ()
    | false => exact fun _ _ _ => rfl
  refine .bind hclaim fun first => ?_
  cases first with
  | true =>
    exact .bind (hsetUp.blind written handlers) fun _ => .bind hpublish fun _ => .pure true
  | false =>
    have hignore : Work (fun _ => True) (ignoreRequest (σ := σ)) := ignoreRequest_work
    exact .bind (.bind (hignore.blind written handlers) fun _ => hwait) fun _ => .pure false

open Api in
/-- **The interface is inert before the start.**  As long as the system is not ready, any calls of
the interface, with any arguments, all return: each with the answer of a call that is turned away,
unless it draws a number.  The machine is the same afterwards, its client and its console included,
except that later draws give later numbers.  So a start and whatever comes after it do the same as
if only the draws had been made, and the same as without any of the calls if none of them draws.  If
neither the client nor what comes after the start depends on the numbers, then it makes no
difference either which of them were drawn; no call depends on them that does not draw one. -/
theorem calls_are_inert_before_start [Client σ] {m : Machine σ} (early : m.system.ready = false)
    (calls : List Api.Call) :
    let drawn := m.advance (registrarsDrawn calls) (contextsDrawn calls)
    Exec.runOn (calls.mapM Api.Call.perform) m = (.ok (earlyAnswers m calls), drawn) ∧
    (∀ (i : Nat) (c : Api.Call), calls[i]? = some c → c.draws = false →
      (earlyAnswers m calls)[i]? = some c.refusal) ∧
    ((∀ c ∈ calls, c.draws = false) → drawn = m) ∧
    (∀ (mode : TrapMode) (further : ApiStatus → Exec σ α),
      Exec.runOn (do
          let _ ← calls.mapM Api.Call.perform
          further (← Api.start mode)) m =
        Exec.runOn (do
          let _ ← (calls.filter Api.Call.draws).mapM Api.Call.perform
          further (← Api.start mode)) m) ∧
    ((∀ text, Exec.Blind (Client.written (σ := σ) text)) →
      (∀ n e, Exec.Blind (Client.errorHandler (σ := σ) n e)) →
      (∀ c : Api.Call, c.draws = false → Exec.Blind (c.perform (σ := σ))) ∧
      ∀ (mode : TrapMode) (further : ApiStatus → Exec σ α), (∀ s, Exec.Blind (further s)) →
        let without := Exec.runOn (do further (← Api.start mode)) m
        Exec.runOn (do
            let _ ← calls.mapM Api.Call.perform
            further (← Api.start mode)) m =
          (without.1, without.2.advance (registrarsDrawn calls) (contextsDrawn calls))) := by
  intro drawn
  have hcalls := runOn_mapM_early early calls
  refine ⟨hcalls, fun i c hi hdraws => earlyAnswers_getElem? hi hdraws m, fun hnone => ?_,
    fun mode further => ?_, fun written handlers =>
      ⟨fun c => Api.Call.perform_blind written handlers, fun mode further hfurther => ?_⟩⟩
  · have hfilter : calls.filter Api.Call.draws = [] :=
      List.filter_eq_nil_iff.2 fun c hc => by rw [hnone c hc]; exact Bool.false_ne_true
    obtain ⟨hregistrars, hcontexts⟩ := drawn_filter_draws calls
    rw [hfilter] at hregistrars hcontexts
    show m.advance (registrarsDrawn calls) (contextsDrawn calls) = m
    rw [← hregistrars, ← hcontexts]
    exact m.advance_zero
  · -- the calls that draw leave the same numbers as all of them
    obtain ⟨hregistrars, hcontexts⟩ := drawn_filter_draws calls
    rw [Exec.runOn_bind_of_ok hcalls, Exec.runOn_bind_of_ok (runOn_mapM_early early _), hregistrars,
      hcontexts]
  · have hstart : Exec.Blind (Api.start (σ := σ) mode) :=
      .bind (System.start_blind written handlers mode) fun _ =>
        .bind (.look (fun _ _ _ => rfl) fun _ => .pure _) fun _ => .pure _
    rw [Exec.runOn_bind_of_ok hcalls]
    exact (hstart.bind hfurther) _ _ m

/-- A machine whose system was not started. -/
def Tenant.idle : Machine Tenant where
  clients := .here

/-- Somebody draws a number, registers a handler, asks for interrupts and for a task switch, all of
it too early. -/
def Tenant.hasty : List Api.Call :=
  [.newRegistrar,
    .registerOwned .timerInterrupt (some (.client 0)) 20 (some "early") none 1, .enableInterrupts,
    .switchTask (some {}) (some {})]

/-- The number was drawn, the rest was turned away, and the start does what it would have done. -/
theorem tenant_is_turned_away :
    let ended := Exec.runOn (Tenant.hasty.mapM Api.Call.perform) Tenant.idle
    Tenant.idle.system.ready = false ∧
    ended = (.ok [.number 1, .status .notReady, .flag false, .image .notReady (some {})],
      { Tenant.idle with nextRegistrar := 2 }) ∧
    Exec.runOn (do
        let _ ← Tenant.hasty.mapM Api.Call.perform
        Api.start .direct) Tenant.idle =
      ((Exec.runOn (Api.start .direct) Tenant.idle).1,
        (Exec.runOn (Api.start .direct) Tenant.idle).2.advance 1 0) := by
  intro ended
  have early : Tenant.idle.system.ready = false := rfl
  obtain ⟨hcalls, -, -, -, hblind⟩ :=
    calls_are_inert_before_start (α := ApiStatus) early Tenant.hasty
  obtain ⟨-, hstart⟩ := hblind (fun _ => .pure ()) fun _ _ => .pure _
  have hsame := hstart .direct pure fun s => .pure s
  have hregistrars : Api.registrarsDrawn Tenant.hasty = 1 := by decide
  have hcontexts : Api.contextsDrawn Tenant.hasty = 0 := by decide
  have hanswers : Api.earlyAnswers Tenant.idle Tenant.hasty =
      [.number 1, .status .notReady, .flag false, .image .notReady (some {})] := rfl
  rw [hregistrars, hcontexts, hanswers] at hcalls
  rw [bind_pure, hregistrars, hcontexts] at hsame
  exact ⟨early, hcalls, hsame⟩

end Supervisor
