/-
Traps are served from a snapshot.

The entries that a trap is offered to are those of its type at the moment when the lock of the
registry is obtained.  What the handlers then do to the registry, to the frame or by traps of
their own has no part in who is called next.

* `Entry.Answers` — what one call of a handler comes to;
* `dispatch_of_walk`, `walk_of_dispatch` — a dispatch does what the calls of its walk do;
* `Served` — the calls for a trap, and the last resort behind them;
* `takeTrap_serves_snapshot` — every trap is served from the snapshot that it takes.
-/
import Supervisor.Proofs.Trap.Passage
import Supervisor.Proofs.Walk

namespace Supervisor

variable {σ : Type} [client : Client σ]

/-- The frame of a trap and the machine. -/
abbrev TrapState (σ : Type) := Frame × Machine σ

/-! ### One call -/

/-- Called in state `s`, the handler of an entry ends with verdict `v`; `s'` is the state after
that and after the report, if it failed. -/
def Entry.Answers (t : TrapType) (sink : Sink) (e : Entry) (s : TrapState σ) (v : Verdict)
    (s' : TrapState σ) : Prop :=
  ∃ m, TrapExec.runOn e.handler.run s.1 s.2 = ((.ok v, s'.1), m) ∧
    match v with
    | .failed error => Exec.runOn (reportFailure e.description t sink error) m = (.ok (), s'.2)
    | _ => s'.2 = m

/-- The handler of an entry returns in a state. -/
def Entry.ReturnsIn (e : Entry) (s : TrapState σ) : Prop :=
  ∃ v f m, TrapExec.runOn e.handler.run s.1 s.2 = ((.ok v, f), m)

/-- Whether a verdict claims the trap. -/
abbrev Verdict.Claims (v : Verdict) : Prop := v.isHandled = true

theorem Entry.answers_of_returnsIn (h : ConsoleReturns σ) (t : TrapType) (sink : Sink) {e : Entry}
    {s : TrapState σ} (he : e.ReturnsIn s) : ∃ v s', e.Answers t sink s v s' := by
  obtain ⟨v, f, m, hrun⟩ := he
  cases v with
  | handled => exact ⟨.handled, (f, m), m, hrun, rfl⟩
  | pass => exact ⟨.pass, (f, m), m, hrun, rfl⟩
  | failed error =>
    obtain ⟨_, m', hreport⟩ := putLine_returns h sink _ m
    exact ⟨.failed error, (f, m'), m, hrun, hreport⟩

/-! ### A dispatch -/

/-- How a dispatch ends after some calls. -/
def verdictOf (calls : List (Call Entry Verdict (TrapState σ))) : Verdict :=
  if calls.any (·.answer.isHandled) then .handled else .failed .noHandler

omit [Client σ] in
theorem verdictOf_cons {c : Call Entry Verdict (TrapState σ)} (h : ¬c.answer.Claims)
    (calls : List (Call Entry Verdict (TrapState σ))) :
    verdictOf (c :: calls) = verdictOf calls := by
  simp only [verdictOf, List.any_cons, eq_false_of_ne_true h, Bool.false_or]

/-- A dispatch leaves the frame and the machine as the last call of its walk leaves them. -/
theorem dispatch_of_walk {t : TrapType} {sink : Sink} {entries : List Entry}
    {calls : List (Call Entry Verdict (TrapState σ))} {s s' : TrapState σ}
    (hlinked : Linked (Entry.Answers t sink) s calls s')
    (hupTo : UpTo Verdict.Claims entries calls) :
    TrapExec.runOn (dispatch t sink entries) s.1 s.2 = ((.ok (verdictOf calls), s'.1), s'.2) := by
  refine walk_induction (motive := fun entries s calls s' =>
    TrapExec.runOn (dispatch t sink entries) s.1 s.2 = ((.ok (verdictOf calls), s'.1), s'.2))
    ?_ ?_ ?_ hlinked hupTo
  · intro s
    rfl
  · intro e entries s v s' hcall hclaim
    obtain ⟨m, hrun, hafter⟩ := hcall
    rw [dispatch, TrapExec.runOn_bind_of_ok hrun]
    cases v with
    | handled =>
      obtain rfl := hafter
      rfl
    | pass => cases hclaim
    | failed error => cases hclaim
  · intro e entries s v s₁ calls s' hcall hclaim ih
    obtain ⟨m, hrun, hafter⟩ := hcall
    rw [verdictOf_cons hclaim, ← ih, dispatch, TrapExec.runOn_bind_of_ok hrun]
    cases v with
    | handled => exact absurd rfl hclaim
    | pass =>
      obtain rfl := hafter
      rfl
    | failed error =>
      -- the report of the failure runs between this call and the next
      show TrapExec.runOn (onMachine _ >>= fun _ => dispatch t sink entries) _ _ = _
      rw [TrapExec.runOn_bind, TrapExec.runOn_onMachine, hafter]

/-- A dispatch that comes back is a walk. -/
theorem walk_of_dispatch {t : TrapType} {sink : Sink} {entries : List Entry} {v : Verdict}
    {s s' : TrapState σ}
    (h : TrapExec.runOn (dispatch t sink entries) s.1 s.2 = ((.ok v, s'.1), s'.2)) :
    ∃ calls, Linked (Entry.Answers t sink) s calls s' ∧ UpTo Verdict.Claims entries calls ∧
      v = verdictOf calls := by
  induction entries generalizing s with
  | nil =>
    obtain rfl : s' = s := Prod.ext (congrArg (·.1.2) h).symm (congrArg (·.2) h).symm
    exact ⟨[], .nil s', .nil, (Except.ok.inj (congrArg (·.1.1) h)).symm⟩
  | cons e entries ih =>
    obtain ⟨answer, f, m, hrun, hrest⟩ := TrapExec.of_runOn_bind_eq_ok h
    cases answer with
    | handled =>
      have hclaim : Verdict.Claims .handled := rfl
      obtain rfl : s' = (f, m) := Prod.ext (congrArg (·.1.2) hrest).symm (congrArg (·.2) hrest).symm
      exact ⟨[⟨e, s, .handled, (f, m)⟩], .cons ⟨m, hrun, rfl⟩ (.nil _), .last hclaim entries,
        (Except.ok.inj (congrArg (·.1.1) hrest)).symm⟩
    | pass =>
      have hno : ¬Verdict.Claims .pass := Bool.false_ne_true
      obtain ⟨calls, hlinked, hupTo, rfl⟩ := ih (s := (f, m)) hrest
      exact ⟨⟨e, s, .pass, (f, m)⟩ :: calls, .cons ⟨m, hrun, rfl⟩ hlinked,
        .cons hno hupTo, Eq.symm (verdictOf_cons hno calls)⟩
    | failed error =>
      -- the report of the failure belongs to the call
      have hno : ¬Verdict.Claims (.failed error) := Bool.false_ne_true
      obtain ⟨_, f', m', hreport, hgo⟩ := TrapExec.of_runOn_bind_eq_ok hrest
      obtain ⟨rfl, hline⟩ := TrapExec.onMachine_eq_ok hreport
      obtain ⟨calls, hlinked, hupTo, rfl⟩ := ih (s := (f', m')) hgo
      exact ⟨⟨e, s, .failed error, (f', m')⟩ :: calls, .cons ⟨m, hrun, hline⟩ hlinked,
        .cons hno hupTo, Eq.symm (verdictOf_cons hno calls)⟩

/-! ### The last resort -/

/-- What the last resort for a trap type makes of the frame. -/
def fallbackFrame : TrapType → Frame → Frame
  | .systemCall => Frame.advance
  | .breakpoint => Frame.advance
  | _ => id

theorem fallback_actsAs (h : ConsoleReturns σ) (t : TrapType) :
    TrapExec.ActsAs (fallback (σ := σ) t) (fallbackFrame t) := by
  have hsay (sink : Sink) (pieces : List Text) : TrapExec.ActsAs (say (σ := σ) sink pieces) id :=
    .onMachine (putLine_returns h sink pieces)
  have hskip : TrapExec.ActsAs (skipInstruction (σ := σ)) Frame.advance := fun f m => ⟨(), m, rfl⟩
  refine .bind_of_id (fun f m => ⟨f, m, rfl⟩) fun f => ?_
  refine .bind_of_id (.onMachine System.console_returns) fun sink => ?_
  cases t with
  | systemCall => exact .bind_of_id (hsay _ _) fun _ => hskip
  | breakpoint => exact .bind_of_id (hsay _ _) fun _ => hskip
  | softwareInterrupt => exact .onMachine (.modify _)
  | timerInterrupt =>
    refine .bind_of_id (.onMachine System.hasFirmware_returns) fun reachable => ?_
    cases reachable with
    | false => exact hsay _ _
    | true => exact .bind_of_id (.onMachine (.update _ _)) fun _ => hsay _ _
  | _ => exact hsay _ _

omit [Client σ] in
/-- Of the client, only the observer of the console counts for the last resort: it runs no
handler. -/
theorem fallback_congr {client other : Client σ} (same : other.written = client.written)
    (t : TrapType) : @fallback σ other t = @fallback σ client t := by
  cases t <;> simp only [fallback, say, putLine_congr same]

/-! ### The snapshot -/

/-- Whoever finds the lock of the registry free gets the entries as they are at that moment, and
has given the lock back before any of them is called. -/
theorem runOn_entriesFor_of_free (t : TrapType) (sink : Sink) {m : Machine σ}
    (h : m.system.lock.flag = false) :
    Exec.runOn (entriesFor t sink) m =
      (.ok (m.system.registry.entries t), Machine.theLock.set ⟨false, noOwner⟩ m.asked) := by
  have hlocked := System.runOn_withLock_of_free lock_apart_platform
    (return some ((← Machine.theRegistry.read).snapshot t bucketCapacity)) (return none) h
  rw [entriesFor, Exec.runOn_bind, System.locked, hlocked, ← Registry.snapshot_bucketCapacity]
  show (Except.ok (m.asked.system.registry.snapshot t bucketCapacity), _) = _
  rw [m.system_asked]
  rfl

/-- Whoever holds the lock of the registry already gets no entries and is told so. -/
theorem runOn_entriesFor_of_taken (t : TrapType) (sink : Sink) {m : Machine σ}
    (h : m.system.lock.flag = true) :
    ∃ core p, Exec.runOn System.currentHart m = (.ok core, Machine.thePlatform.set p m) ∧
      (m.system.lock.isHeldBy core = true ∧ Exec.runOn (entriesFor t sink) m = Exec.runOn (do
          putLine sink ["[TRAP] registry held by this hart, ", t.name, " goes to fallback\n"]
          return []) (Machine.thePlatform.set p m) ∨
        Exec.runOn (entriesFor t sink) m = (.error .waits, Machine.thePlatform.set p m)) := by
  obtain ⟨core, r, p, hcore, hr, hlocked⟩ := runOn_locked_of_taken System.asksHart_currentHart
    lock_apart_platform (return some ((← Machine.theRegistry.read).snapshot t bucketCapacity)) none h
  refine ⟨core, p, hcore, ?_⟩
  rcases hr with ⟨hheld, rfl⟩ | rfl
  · exact .inl ⟨hheld, Exec.runOn_bind_of_ok hlocked⟩
  · exact .inr (Exec.runOn_bind_of_error hlocked)

/-- What is left of serving a trap that is offered to nobody. -/
def unattended (core : UInt32) (t : TrapType) (sink : Sink) : TrapExec σ Unit := do
  say sink ["[TRAP] registry held by this hart, ", t.name, " goes to fallback\n"]
  fallback t
  onMachine (closeTrap core t false)

/-- A trap whose handlers return when they are called is served by a walk through the entries it
was given, and by the last resort if none of them claims it. -/
theorem serveTrap_of_returning (h : ConsoleReturns σ) (core : UInt32) {t : TrapType} {sink : Sink}
    {entries : List Entry} {f : Frame} {m m' : Machine σ}
    (hentries : Exec.runOn (entriesFor t sink) m = (.ok entries, m'))
    (hreturn : Throughout (Entry.Answers t sink) Verdict.Claims Entry.ReturnsIn entries (f, m')) :
    ∃ calls last final,
      Linked (Entry.Answers t sink) (f, m') calls last ∧
      UpTo Verdict.Claims entries calls ∧
      ((∃ c ∈ calls, c.answer.Claims) → final = last) ∧
      ((∀ c ∈ calls, ¬c.answer.Claims) →
        TrapExec.runOn (fallback t) last.1 last.2 = ((.ok (), final.1), final.2) ∧
        final.1 = fallbackFrame t last.1) ∧
      TrapExec.runOn (serveTrap core t sink) f m =
        TrapExec.runOn (onMachine (closeTrap core t (verdictOf calls).isHandled))
          final.1 final.2 := by
  obtain ⟨calls, last, hlinked, hupTo⟩ :=
    exists_walk (hreturn.mono fun _ _ he => Entry.answers_of_returnsIn h t sink he)
  have hdispatch := dispatch_of_walk hlinked hupTo
  -- the walk starts where the snapshot was taken, and the last resort sees what the walk left
  have hserve : TrapExec.runOn (serveTrap core t sink) f m = TrapExec.runOn (do
      unless (verdictOf calls).isHandled do fallback t
      onMachine (closeTrap core t (verdictOf calls).isHandled)) last.1 last.2 := by
    have hfirst : TrapExec.runOn (onMachine (entriesFor t sink)) f m = ((.ok entries, f), m') := by
      rw [TrapExec.runOn_onMachine, hentries]
    rw [serveTrap, TrapExec.runOn_bind_of_ok hfirst, TrapExec.runOn_bind_of_ok hdispatch]
  by_cases hany : calls.any (·.answer.isHandled) = true
  · have hverdict : verdictOf calls = .handled := if_pos hany
    refine ⟨calls, last, last, hlinked, hupTo, fun _ => rfl, fun hno => ?_, ?_⟩
    · obtain ⟨c, hc, hclaim⟩ := List.any_eq_true.1 hany
      exact absurd hclaim (hno c hc)
    · rw [hserve, hverdict]
      rfl
  · -- nobody claimed the trap, so the fallback has the last word on the frame
    have hverdict : verdictOf calls = .failed .noHandler := if_neg hany
    obtain ⟨_, m'', hfallback⟩ := fallback_actsAs h t last.1 last.2
    refine ⟨calls, last, (fallbackFrame t last.1, m''), hlinked, hupTo, fun hsome => ?_,
      fun _ => ⟨hfallback, rfl⟩, ?_⟩
    · exact absurd (List.any_eq_true.2 hsome) hany
    · rw [hserve, hverdict]
      exact TrapExec.runOn_bind_of_ok hfallback

/-- Once the system is ready, a trap is begun and served. -/
theorem takeTrap_of_ready {m : Machine σ} (ready : m.system.ready = true) (f : Frame) :
    TrapExec.runOn takeTrap f m = TrapExec.runOn (do
      let (core, sink) ← onMachine (openTrap f)
      serveTrap core f.trapType sink) f m := by
  have hcheck : TrapExec.runOn (getThe (Machine σ) : TrapExec σ (Machine σ)) f m =
      ((.ok m, f), m) := rfl
  have hframe : TrapExec.runOn (theFrame : TrapExec σ Frame) f m = ((.ok f, f), m) := rfl
  rw [takeTrap, TrapExec.runOn_bind_of_ok hcheck, ready, if_pos rfl,
    TrapExec.runOn_bind_of_ok hframe]

/-- Below the limit a trap is served from where its beginning has left the machine. -/
theorem takeTrap_of_announced {m m₁ : Machine σ} {f : Frame} (ready : m.system.ready = true)
    (room : m.level < m.system.nesting.limit) (announced : Announced f (m.begun f) m₁) :
    TrapExec.runOn takeTrap f m = TrapExec.runOn (serveTrap m.hart f.trapType m.sink) f m₁ := by
  have hopen : TrapExec.runOn (onMachine (openTrap f)) f m = ((.ok (m.hart, m.sink), f), m₁) := by
    rw [TrapExec.runOn_onMachine, openTrap_of_announced room announced client rfl]
  rw [takeTrap_of_ready ready, TrapExec.runOn_bind_of_ok hopen]

/-- **Every trap is served from the snapshot that it takes.**  Let a trap be taken once the system
is ready, below the limit.

Its beginning claims a slot, keeps the frame there, notes and announces the trap, and does nothing
else: it runs no handler, so it would do the same with other handlers, and the registry and its lock
stay as they are unless it is those who observe the console that change them.

Let `m₂` be the machine at the moment when the lock of the registry is obtained: that is `m₁` if
nobody holds it.  The trap is offered to the entries that `m₂` has for the type of the frame at its
start.  The lock is free again before the first call, and but for that `m₃` differs from `m₂` only
by the number of the hart.  As long as each handler returns when its turn comes, the calls are those
entries in order, each once, up to and including the first that claims the trap, each from the frame
and the machine that the call before it left.  The last resort for that type follows exactly if none
claims it, and runs no handler either.  The end of the trap is noted and the slot given back, and
nothing else is done; it does not touch the frame any more.

The handlers may do anything to the registry and take traps themselves.  Those traps are served
from their own snapshots by the same theorem, since `m` is any machine. -/
theorem takeTrap_serves_snapshot (console : ConsoleReturns σ) {m : Machine σ} {f : Frame}
    (ready : m.system.ready = true) (room : m.level < m.system.nesting.limit) :
    let t := f.trapType
    ∃ m₁ : Machine σ,
      Announced f (m.begun f) m₁ ∧
      (∀ other : Client σ, other.written = client.written →
        Exec.runOn (@openTrap σ other f) m = (.ok (m.hart, m.sink), m₁)) ∧
      ((∀ text, Exec.Keeps (client.written text)
          fun m => (m.system.registry, m.system.lock)) →
        m₁.system.registry = m.system.registry ∧ m₁.system.lock = m.system.lock) ∧
      TrapExec.runOn takeTrap f m = TrapExec.runOn (serveTrap m.hart t m.sink) f m₁ ∧
      ∀ m₂ : Machine σ, m₂.system.lock.flag = false →
        let entries := m₂.system.registry.entries t
        let m₃ := Machine.theLock.set ⟨false, noOwner⟩ m₂.asked
        Exec.runOn (entriesFor t m.sink) m₂ = (.ok entries, m₃) ∧
        m₃.system.registry = m₂.system.registry ∧ m₃.system.lock.flag = false ∧
        (Throughout (Entry.Answers t m.sink) Verdict.Claims Entry.ReturnsIn entries (f, m₃) →
          ∃ calls last final,
            Linked (Entry.Answers t m.sink) (f, m₃) calls last ∧
            UpTo Verdict.Claims entries calls ∧
            ((∃ c ∈ calls, c.answer.Claims) → final = last) ∧
            ((∀ c ∈ calls, ¬c.answer.Claims) →
              (∀ other : Client σ, other.written = client.written →
                TrapExec.runOn (@fallback σ other t) last.1 last.2 =
                  ((.ok (), final.1), final.2)) ∧
              final.1 = fallbackFrame t last.1) ∧
            let ended := final.2.ended m.hart t (verdictOf calls).isHandled
            Exec.runOn (closeTrap m.hart t (verdictOf calls).isHandled) final.2 = ended ∧
            TrapExec.runOn (serveTrap m.hart t m.sink) f m₂ = ((ended.1, final.1), ended.2)) := by
  intro t
  obtain ⟨m₁, announced⟩ := exists_announced console f (m.begun f)
  refine ⟨m₁, announced, openTrap_of_announced room announced, fun quiet => ?_,
    takeTrap_of_announced ready room announced, ?_⟩
  · let view (m : Machine σ) : Registry × Spinlock := (m.system.registry, m.system.lock)
    have hbegun : view (m.begun f) = view m :=
      Machine.view_begun (fun _ => rfl) (fun _ => rfl) (fun _ _ _ => rfl) (fun _ _ => rfl) f m
    have hannounced : view m₁ = view (m.begun f) := announced.keeps (fun _ _ => rfl) quiet
    exact Prod.mk.inj (hannounced.trans hbegun)
  · -- from here on the registry of `m₂` is the only one that counts
    intro m₂ free entries m₃
    have hentries : Exec.runOn (entriesFor t m.sink) m₂ = (.ok entries, m₃) :=
      runOn_entriesFor_of_free t m.sink free
    have hregistry : m₃.system.registry = m₂.system.registry := by
      show m₂.asked.system.registry = _
      rw [m₂.system_asked]
    refine ⟨hentries, hregistry, rfl, fun hreturn => ?_⟩
    obtain ⟨calls, last, final, hlinked, hupTo, hclaimed, hunclaimed, hserve⟩ :=
      serveTrap_of_returning console m.hart hentries hreturn
    refine ⟨calls, last, final, hlinked, hupTo, hclaimed, fun hnone => ?_,
      runOn_closeTrap _ _ _ _, ?_⟩
    · obtain ⟨hfallback, hframe⟩ := hunclaimed hnone
      refine ⟨fun other same => ?_, hframe⟩
      rw [fallback_congr same, hfallback]
    · rw [hserve, TrapExec.runOn_onMachine, runOn_closeTrap]

/-- A client whose first handler empties the registry, rewrites the cause in the frame and passes
the trap on.  Its other handlers go on at address eight and claim the trap. -/
inductive Sweeper where
  | here

instance : Client Sweeper where
  trapHandler n := do
    if n = 0 then
      onMachine (Machine.theRegistry.update Registry.clear)
      modifyThe Frame fun f => { f with scause := 0 }
      return .pass
    else
      modifyThe Frame fun f => { f with sepc := 8 }
      return .handled
  errorHandler _ _ := return .unhandled
  command _ _ _ := return 0
  written _ := return

/-- A machine that is ready, with two handlers of breakpoints. -/
def Sweeper.machine : Machine Sweeper where
  system.ready := true
  system.registry :=
    let first := (Registry.add {} .breakpoint ⟨some (.client 0), some [1], {}⟩).2
    (first.add .breakpoint ⟨some (.client 1), some [2], {}⟩).2
  clients := .here

/-- The frame of a breakpoint. -/
def Sweeper.frame : Frame where
  scause := 3

/-- The handler behind the one that empties the registry is still called. -/
theorem takeTrap_serves_swept_snapshot :
    (TrapExec.runOn takeTrap Sweeper.frame Sweeper.machine).1 =
      (.ok (), { Sweeper.frame with scause := 0, sepc := 8 }) ∧
    ∃ (m : Machine Sweeper) (calls : List (Call Entry Verdict (TrapState Sweeper)))
        (last : TrapState Sweeper),
      m.system.registry = Sweeper.machine.system.registry ∧
      Linked (Entry.Answers .breakpoint .nowhere) (Sweeper.frame, m) calls last ∧
      UpTo Verdict.Claims (Sweeper.machine.system.registry.entries .breakpoint) calls := by
  refine ⟨by rfl, ?_⟩
  have console : ConsoleReturns Sweeper := fun _ m => ⟨(), m, rfl⟩
  obtain ⟨m₁, -, -, hquiet, -, hserve⟩ := takeTrap_serves_snapshot console
    (m := Sweeper.machine) (f := Sweeper.frame) (by rfl) (by decide)
  obtain ⟨hregistry, hlock⟩ := hquiet fun _ _ => rfl
  obtain ⟨-, hsame, -, hwalk⟩ := hserve m₁ (by rw [hlock]; rfl)
  rw [hregistry] at hsame hwalk
  have hclients : ∀ e ∈ Sweeper.machine.system.registry.entries .breakpoint,
      e.handler = .client 0 ∨ e.handler = .client 1 := by decide
  obtain ⟨calls, last, final, hlinked, hupTo, -⟩ := hwalk <| by
    intro calls s e rest _ _ heq
    have he : e ∈ Sweeper.machine.system.registry.entries .breakpoint := by
      show e ∈ Sweeper.machine.system.registry.entries Sweeper.frame.trapType
      rw [heq]
      exact List.mem_append_right _ (List.mem_cons_self)
    rcases hclients e he with h | h
    · exact ⟨.pass, _, _, by rw [h]; rfl⟩
    · exact ⟨.handled, _, _, by rw [h]; rfl⟩
  exact ⟨_, calls, last, hsame, hlinked, hupTo⟩

end Supervisor
