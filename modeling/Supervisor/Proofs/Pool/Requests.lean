/-
What the users of a pool are told.

A pool of a machine is asked one request after the other, by anybody who runs while the lock of the
pool is not held by the same hart.  What it answers is what `Desk.serve` answers, so all there is to
say of a handle can be read off the requests that were made before.

* `Machine.desk` — a pool of a machine and the next number, whoever holds the lock;
* `Answered` — an action under the lock of a pool waits for another hart or returns;
* `PoolRequest.perform` — a request, as the machine carries it out;
* `PoolRequest.serves` — that is what `Desk.serve` makes of it;
* `Session` — a machine in use, and the requests that were made;
* `pool_answers_go_by_the_log` — what a pool says of a handle, at any time.

Design notes: when a context ends, the operator is told, and whoever observes the console may make
requests of its own before the request is answered.  These come after it in the log.
-/
import Supervisor.Proofs.Contexts
import Supervisor.Proofs.Pool.Handles

namespace Supervisor

open PoolLog

variable {σ α β : Type}

/-- A pool that is a part beside the platform and the trap system, and beside the count that the
numbers of contexts come from. -/
structure StandsApart (place : Part (Machine σ) Pool) : Prop
    extends Contexts.StandsBeside place where
  count : ∀ p m, (place.set p m).nextContext = m.nextContext
  number : ∀ n m, place.get { m with nextContext := n } = place.get m

/-- A pool of a machine and the next number, whoever holds the lock. -/
def Machine.desk (pool : Part (Machine σ) Pool) (m : Machine σ) : Desk :=
  ⟨{ pool.get m with lock := {} }, m.nextContext⟩

/-- An action under the lock of a pool waits for another hart, or it returns and gives the lock
back. -/
def Answered (pool : Part (Machine σ) Pool) (x : Exec σ α) (m : Machine σ)
    (Q : α → Machine σ → Prop) : Prop :=
  if (pool.get m).lock.flag then ∃ m', Exec.runOn x m = (.error .waits, m')
  else ∃ a m', Exec.runOn x m = (.ok a, m') ∧ (pool.get m').lock.flag = false ∧ Q a m'

/-- An action returns what `g` makes of a pool and the next number, and leaves behind what `g`
makes of them. -/
def Acts (pool : Part (Machine σ) Pool) (x : Exec σ α) (g : Desk → α × Desk) : Prop :=
  ∀ m, ∃ a m', Exec.runOn x m = (.ok a, m') ∧ (a, m'.desk pool) = g (m.desk pool)

/-- What a look at a record says of its handle. -/
def verdict : Except PoolStatus Unit → PoolStatus
  | .ok () => .ok
  | .error e => e

namespace Answered

variable {pool : Part (Machine σ) Pool} {x : Exec σ α} {m : Machine σ} {Q : α → Machine σ → Prop}

theorem mono {Q' : α → Machine σ → Prop} (h : Answered pool x m Q) (hQ : ∀ a m', Q a m' → Q' a m') :
    Answered pool x m Q' := by
  rw [Answered] at h ⊢
  split at h
  · rwa [if_pos ‹_›]
  · rw [if_neg ‹_›]
    obtain ⟨a, m', hrun, hfree, hq⟩ := h
    exact ⟨a, m', hrun, hfree, hQ a m' hq⟩

/-- What is answered may be put in other words. -/
theorem map (h : Answered pool x m Q) {f : α → Exec σ β} {g : α → β} (hf : ∀ a, f a = pure (g a)) :
    Answered pool (x >>= f) m fun b m' => ∃ a, b = g a ∧ Q a m' := by
  rw [Answered] at h ⊢
  split at h
  · rw [if_pos ‹_›]
    obtain ⟨m', hrun⟩ := h
    exact ⟨m', Exec.runOn_bind_of_error hrun⟩
  · rw [if_neg ‹_›]
    obtain ⟨a, m', hrun, hfree, hq⟩ := h
    refine ⟨g a, m', ?_, hfree, a, rfl, hq⟩
    rw [Exec.runOn_bind_of_ok hrun, hf, Exec.runOn_pure]

theorem of_returned (h : Answered pool x m Q) {a : α} {m' : Machine σ}
    (returned : Exec.runOn x m = (.ok a, m')) : Q a m' := by
  rw [Answered] at h
  split at h
  · obtain ⟨m₁, hrun⟩ := h
    cases congrArg Prod.fst (returned.symm.trans hrun)
  · obtain ⟨a₁, m₁, hrun, -, hq⟩ := h
    have heq := returned.symm.trans hrun
    obtain rfl : a = a₁ := Except.ok.inj (congrArg Prod.fst heq)
    obtain rfl : m' = m₁ := congrArg Prod.snd heq
    exact hq

end Answered

/-! ### Under the lock of a pool -/

section

variable {pool : Part (Machine σ) Pool} (apart : StandsApart pool)

include apart

theorem desk_asked (m : Machine σ) : m.asked.desk pool = m.desk pool := by
  obtain ⟨hart, next, hasked⟩ := m.asked_eq
  rw [Machine.desk, apart.platform.get_asked, hasked]
  rfl

theorem desk_set_lock (l : Spinlock) (m : Machine σ) :
    ((Contexts.lock pool).set l m).desk pool = m.desk pool := by
  have hget : pool.get ((Contexts.lock pool).set l m) = { pool.get m with lock := l } :=
    pool.get_set _ m
  have hcount : ((Contexts.lock pool).set l m).nextContext = m.nextContext := apart.count _ m
  rw [Machine.desk, hget, hcount]
  rfl

/-- A hart that finds the lock with another one waits. -/
theorem runOn_locked_of_unheld (body : Exec σ α) (a : α) {m : Machine σ}
    (taken : (pool.get m).lock.flag = true) (unheld : (pool.get m).lock.isHeldBy m.hart = false) :
    Exec.runOn (Contexts.locked pool body (return a)) m = (.error .waits, m.asked) :=
  (System.runOn_withLock_of_taken (Contexts.lock_apart_platform apart.toStandsBeside) body a
    taken).trans (congrArg (·, m.asked) (if_neg (ne_true_of_eq_false unheld)))

theorem Acts.locked {body : Exec σ α} {g : Desk → α × Desk} (hbody : Acts pool body g) (a : α)
    {m : Machine σ} (unheld : (pool.get m).lock.isHeldBy m.hart = false) :
    Answered pool (Contexts.locked pool body (return a)) m fun b m' =>
      (b, m'.desk pool) = g (m.desk pool) := by
  have hlock := Contexts.lock_apart_platform apart.toStandsBeside
  rw [Answered]
  cases hflag : (pool.get m).lock.flag with
  | true =>
    rw [if_pos rfl]
    exact ⟨_, runOn_locked_of_unheld apart body a hflag unheld⟩
  | false =>
    rw [if_neg Bool.false_ne_true]
    -- the body starts with the lock taken, which the desk does not show
    obtain ⟨b, m₁, hrun, hdesk⟩ := hbody ((Contexts.lock pool).set ⟨true, m.hart⟩ m.asked)
    rw [desk_set_lock apart, desk_asked apart] at hdesk
    refine ⟨b, (Contexts.lock pool).set ((Contexts.lock pool).get m₁).release m₁, ?_, ?_, ?_⟩
    · rw [Contexts.locked, System.runOn_withLock_of_free hlock body _ hflag, Exec.runOn_finally,
        hrun]
    · exact congrArg (·.lock.flag) (pool.get_set _ m₁)
    · rw [desk_set_lock apart, hdesk]

/-- A change of the pool that does not look at the lock. -/
theorem Acts.change {f : Pool → α × Pool}
    (hf : ∀ p l, f { p with lock := l } = ((f p).1, { (f p).2 with lock := l })) :
    Acts pool (pool.change f) fun d => ((f d.pool).1, { d with pool := (f d.pool).2 }) := by
  intro m
  have hlock : f (m.desk pool).pool =
      ((f (pool.get m)).1, { (f (pool.get m)).2 with lock := {} }) := hf (pool.get m) {}
  refine ⟨_, _, Part.runOn_change pool f m, ?_⟩
  dsimp only
  rw [hlock, Machine.desk, pool.get_set, apart.count]
  rfl

/-! ### Requests -/

theorem access_answered (h : Handle) (f : ContextRecord → α × ContextRecord) {m : Machine σ}
    (unheld : (pool.get m).lock.isHeldBy m.hart = false) :
    Answered pool (Contexts.access pool h f) m fun a m' =>
      (a, m'.desk pool) = (m.desk pool).access h f := by
  refine ((Acts.change apart fun p l => ?_).locked apart _ unheld).mono
    fun a m' heq => heq.trans ?_
  · have hlocate : ({ p with lock := l } : Pool).locate h = p.locate h := rfl
    rw [hlocate]
    cases p.locate h <;> rfl
  · rw [Desk.access]
    cases (m.desk pool).pool.locate h <;> rfl

theorem create_answered (name : Text) {m : Machine σ}
    (unheld : (pool.get m).lock.isHeldBy m.hart = false) :
    Answered pool (Contexts.create pool name) m fun a m' =>
      (a, m'.desk pool) = (m.desk pool).create name := by
  refine Acts.locked apart (g := fun d => d.create name) (fun m => ?_) _ unheld
  have hvacant : (m.desk pool).pool.vacant = (pool.get m).vacant := rfl
  dsimp only
  rw [Exec.runOn_bind_of_ok (Part.runOn_read pool m), Desk.create, hvacant]
  cases (pool.get m).vacant with
  | none => exact ⟨_, m, rfl, rfl⟩
  | some i =>
    refine ⟨_, _, rfl, ?_⟩
    dsimp only
    rw [Machine.desk, pool.get_set, apart.count, apart.number]
    rfl

/-- A pool that is full is left as it is: all that has happened is that the hart was asked for its
number and that the lock was taken and given back. -/
theorem create_of_full (name : Text) {m : Machine σ} (hfull : (pool.get m).vacant = none)
    (unheld : (pool.get m).lock.isHeldBy m.hart = false) :
    Answered pool (Contexts.create pool name) m fun a m' =>
      a = .error .full ∧ m' = (Contexts.lock pool).set ⟨false, noOwner⟩ m.asked := by
  rw [Answered]
  cases hflag : (pool.get m).lock.flag with
  | true =>
    rw [if_pos rfl]
    exact ⟨_, runOn_locked_of_unheld apart _ _ hflag unheld⟩
  | false =>
    rw [if_neg Bool.false_ne_true]
    set m₀ := (Contexts.lock pool).set ⟨true, m.hart⟩ m.asked with hm₀
    have hget : pool.get m₀ = { pool.get m.asked with lock := ⟨true, m.hart⟩ } := pool.get_set _ _
    have hvacant : (pool.get m₀).vacant = none := by
      rw [hget, apart.platform.get_asked]
      exact hfull
    refine ⟨.error .full, (Contexts.lock pool).set ⟨false, noOwner⟩ m.asked, ?_, ?_, rfl, rfl⟩
    · rw [Contexts.create, Contexts.locked, System.runOn_withLock_of_free
        (Contexts.lock_apart_platform apart.toStandsBeside) _ _ hflag, Exec.runOn_finally,
        Exec.runOn_bind_of_ok (Part.runOn_read pool m₀), hvacant, Exec.runOn_pure,
        Spinlock.release_eq, hm₀, (Contexts.lock pool).set_set]
    · exact congrArg (·.lock.flag) (pool.get_set _ m.asked)

theorem activeCount_answered {m : Machine σ}
    (unheld : (pool.get m).lock.isHeldBy m.hart = false) :
    Answered pool (Contexts.activeCount pool) m fun n m' =>
      (n, m'.desk pool) = ((m.desk pool).pool.activeCount, m.desk pool) :=
  Acts.locked apart (g := fun d => (d.pool.activeCount, d)) (fun m => ⟨_, m, rfl, rfl⟩) _ unheld

theorem validate_answered (h : Handle) {m : Machine σ}
    (unheld : (pool.get m).lock.isHeldBy m.hart = false) :
    Answered pool (Contexts.validate pool h) m fun s m' => ∃ a, s = verdict a ∧
      (a, m'.desk pool) = (m.desk pool).access h fun r => ((), r) :=
  (access_answered apart h (fun r => ((), r)) unheld).map fun a => by cases a <;> rfl

end

section

variable [Client σ] (pool : Part (Machine σ) Pool)

/-- A request, as the machine carries it out. -/
def PoolRequest.perform : PoolRequest → Exec σ PoolAnswer
  | .create name => return .of .made (← Contexts.create pool name)
  | .destroy h => return .of (fun _ => .status .ok) (← Contexts.destroy pool h)
  | .setState h v => do
    let a ← Contexts.access pool h fun r => ((), { r with userState := v })
    return .of (fun _ => .status .ok) a
  | .getState h => return .of .state (← Contexts.access pool h fun r => (r.userState, r))
  | .getName h => return .of .name (← Contexts.access pool h fun r => (r.name, r))
  | .validate h => return .status (← Contexts.validate pool h)
  | .count => return .count (← Contexts.activeCount pool)
  | .drawNumber => return .number (← newContextId)

/-- From one machine to the other nothing became of a pool but what requests made of it. -/
def Attended (m m' : Machine σ) : Prop := ∃ log, (m.desk pool).Serves log (m'.desk pool)

variable {pool}

omit [Client σ] in
theorem Attended.of_desk {m m' : Machine σ} (h : m'.desk pool = m.desk pool) :
    Attended pool m m' := ⟨[], h ▸ .nil⟩

omit [Client σ] in
instance Attended.isPreorder : IsPreorder (Machine σ) (Attended pool) where
  refl _ := .of_desk rfl
  trans _ _ _ h h' := by
    obtain ⟨log, hlog⟩ := h
    obtain ⟨log', hlog'⟩ := h'
    exact ⟨log' ++ log, hlog.append hlog'⟩

variable (apart : StandsApart pool)
  (observers : ∀ text, Exec.Leads (Client.written (σ := σ) text) (Attended pool))

include apart

omit [Client σ] in
theorem desk_set_platform (p : Platform) (m : Machine σ) :
    (Machine.thePlatform.set p m).desk pool = m.desk pool := by
  rw [Machine.desk, apart.platform]
  rfl

omit [Client σ] in
theorem desk_set_system (s : System) (m : Machine σ) :
    (Machine.theSystem.set s m).desk pool = m.desk pool := by
  rw [Machine.desk, apart.system]
  rfl

omit [Client σ] in
/-- The handlers that go with a context are no concern of the pool. -/
theorem purge_keeps_desk (context : ContextId) :
    Exec.Keeps (System.purge (σ := σ) context) (Machine.desk pool) := by
  refine .bind (System.locked_keeps (fun m => desk_set_platform apart _ m)
    (fun l m => desk_set_system apart { m.system with lock := l } m)
    (.change (fun r m => desk_set_system apart { m.system with registry := r } m) _) (.pure _))
    fun removal => ?_
  have hnote := System.note_keeps (fun m => desk_set_platform apart m.platform.time.2 m)
    (fun t m => desk_set_system apart { m.system with trace := t } m) .contextCleanup "purge" context
  exact .ite (.bind hnote fun _ => .pure _) (.pure _)

include observers

/-- After the record of a context is closed, only observers of the console make requests. -/
theorem clear_leads (h : Handle) : Exec.Leads (Contexts.clear (σ := σ) h) (Attended pool) := by
  refine .bind (.of_keeps (purge_keeps_desk apart h.id) fun _ _ => .of_desk) fun removal => ?_
  refine .bind (.of_keeps System.console_keeps fun _ _ => .of_desk) fun sink => ?_
  refine .bind (putLine_leads (fun _ _ => .of_desk (desk_set_platform apart _ _)) observers _ _)
    fun _ => .pure _

/-- The end of a context is told to the pool first. -/
theorem destroy_serves {h : Handle} {m m' : Machine σ} {a : Except PoolStatus Nat}
    (unheld : (pool.get m).lock.isHeldBy m.hart = false)
    (returned : Exec.runOn (Contexts.destroy pool h) m = (.ok a, m')) :
    .of (fun _ => .status .ok) a = ((m.desk pool).serve (.destroy h)).1 ∧
      ∃ meanwhile, ((m.desk pool).serve (.destroy h)).2.Serves meanwhile (m'.desk pool) := by
  rw [Contexts.destroy_eq] at returned
  obtain ⟨ended, m₁, hclose, hrest⟩ := Exec.of_runOn_bind_eq_ok returned
  have hclosed : (ended, m₁.desk pool) = _ :=
    ((Acts.change apart fun p l => ?_).locked apart _ unheld).of_returned hclose
  · obtain ⟨hended, hdesk⟩ := Prod.mk.inj hclosed
    rw [Contexts.closeRecord] at hended hdesk
    rw [Desk.serve, Desk.access]
    cases hlocate : (m.desk pool).pool.locate h with
    | error e =>
      rw [hlocate] at hended hdesk
      rw [hended, Exec.runOn_pure] at hrest
      obtain rfl : m₁ = m' := congrArg Prod.snd hrest
      rw [← Except.ok.inj (congrArg Prod.fst hrest)]
      exact ⟨rfl, [], hdesk ▸ .nil⟩
    | ok i =>
      rw [hlocate] at hended hdesk
      rw [hended] at hrest
      obtain ⟨removal, m₂, hpurge, -⟩ := Exec.of_runOn_bind_eq_ok hrest
      rw [(Contexts.told_of_clear hpurge hrest).1]
      -- the lock is given back by now, and the observers of the console may do as they like
      obtain ⟨meanwhile, hmeanwhile⟩ := (clear_leads apart observers h).of_runOn hrest
      rw [hdesk] at hmeanwhile
      exact ⟨rfl, meanwhile, hmeanwhile⟩
  · cases hlocate : p.locate h with
    | error e => rw [Contexts.closeRecord_of_error hlocate, Contexts.closeRecord, hlocate]
    | ok i => rw [Contexts.closeRecord_of_ok hlocate, Contexts.closeRecord, hlocate]

/-- **A request is answered as `Desk.serve` has it**, and leaves behind what that makes of the pool,
but for the requests that are made before it is answered. -/
theorem PoolRequest.serves (r : PoolRequest) {m m' : Machine σ} {a : PoolAnswer}
    (unheld : r ≠ .drawNumber → (pool.get m).lock.isHeldBy m.hart = false)
    (returned : Exec.runOn (r.perform pool) m = (.ok a, m')) :
    a = ((m.desk pool).serve r).1 ∧
      ∃ meanwhile, ((m.desk pool).serve r).2.Serves meanwhile (m'.desk pool) := by
  -- all requests but one are over when the lock is given back
  have alone {b : PoolAnswer} (h : (b, m'.desk pool) = (m.desk pool).serve r) :
      b = ((m.desk pool).serve r).1 ∧
        ∃ meanwhile, ((m.desk pool).serve r).2.Serves meanwhile (m'.desk pool) := by
    rw [← h]
    exact ⟨rfl, [], .nil⟩
  cases r with
  | create name =>
    obtain ⟨b, rfl, h⟩ :=
      ((create_answered apart name (unheld PoolRequest.noConfusion)).map fun _ => rfl).of_returned returned
    refine alone ?_
    rw [Desk.serve, ← h]
    rfl
  | destroy h =>
    obtain ⟨b, m₁, hdestroy, hanswer⟩ := Exec.of_runOn_bind_eq_ok returned
    rw [Exec.runOn_pure] at hanswer
    obtain rfl : m₁ = m' := congrArg Prod.snd hanswer
    rw [← Except.ok.inj (congrArg Prod.fst hanswer)]
    exact destroy_serves apart observers (unheld PoolRequest.noConfusion) hdestroy
  | setState h v =>
    obtain ⟨b, rfl, h⟩ := ((access_answered apart h (fun r => ((), { r with userState := v }))
      (unheld PoolRequest.noConfusion)).map fun _ => rfl).of_returned returned
    refine alone ?_
    rw [Desk.serve, ← h]
    rfl
  | getState h =>
    obtain ⟨b, rfl, h⟩ := ((access_answered apart h (fun r => (r.userState, r))
      (unheld PoolRequest.noConfusion)).map fun _ => rfl).of_returned returned
    refine alone ?_
    rw [Desk.serve, ← h]
    rfl
  | getName h =>
    obtain ⟨b, rfl, h⟩ := ((access_answered apart h (fun r => (r.name, r))
      (unheld PoolRequest.noConfusion)).map fun _ => rfl).of_returned returned
    refine alone ?_
    rw [Desk.serve, ← h]
    rfl
  | validate h =>
    obtain ⟨s, rfl, b, rfl, h⟩ :=
      ((validate_answered apart h (unheld PoolRequest.noConfusion)).map fun _ => rfl).of_returned returned
    refine alone ?_
    rw [Desk.serve, ← h]
    cases b <;> rfl
  | count =>
    obtain ⟨n, rfl, h⟩ :=
      ((activeCount_answered apart (unheld PoolRequest.noConfusion)).map fun _ => rfl).of_returned returned
    obtain ⟨rfl, hdesk⟩ := Prod.mk.inj h
    refine alone ?_
    rw [hdesk]
    rfl
  | drawNumber =>
    have hdraw : Exec.runOn (PoolRequest.drawNumber.perform pool) m =
        (.ok (.number m.nextContext), { m with nextContext := m.nextContext + 1 }) := rfl
    have heq := returned.symm.trans hdraw
    obtain rfl : a = .number m.nextContext := Except.ok.inj (congrArg Prod.fst heq)
    obtain rfl : m' = { m with nextContext := m.nextContext + 1 } := congrArg Prod.snd heq
    refine alone ?_
    rw [Machine.desk, apart.number]
    rfl

/-! ### A machine in use -/

omit apart observers

variable (pool) in
/-- A machine in use: the requests that were made of its pool, and whatever else happened. -/
inductive Session (start : Machine σ) : PoolLog → Machine σ → Prop
  | begins : Session start [] start
  /-- A hart that does not hold the lock makes a request, and until it is answered others may make
  some as well.  A number is drawn without the lock. -/
  | asked {log m a m'} (r : PoolRequest) (meanwhile : PoolLog) (earlier : Session start log m)
      (unheld : r ≠ .drawNumber → (pool.get m).lock.isHeldBy m.hart = false)
      (returned : Exec.runOn (r.perform pool) m = (.ok a, m'))
      (others : ((m.desk pool).serve r).2.Serves meanwhile (m'.desk pool)) :
      Session start (meanwhile ++ (r, a) :: log) m'
  | elsewhere {log m m'} (earlier : Session start log m)
      (untouched : m'.desk pool = m.desk pool) : Session start log m'

include apart observers

theorem Session.serves {start m : Machine σ} {log : PoolLog} (session : Session pool start log m) :
    (start.desk pool).Serves log (m.desk pool) := by
  induction session with
  | begins => exact .nil
  | asked r meanwhile _ unheld returned others ih =>
    rw [(r.serves apart observers unheld returned).1]
    exact (ih.cons r).append others
  | elsewhere _ untouched ih =>
    rw [untouched]
    exact ih

/-- **What a pool says of a handle can be read off the requests that were made of it.**  Whatever
was asked of a pool that began with its records as they come, and before the count of the
numbers comes round, a hart that does not hold the lock is told this, unless it waits for another
one.  A handle is good exactly while it is outstanding, and if it is not, the answer is what there
is to say of it; that of a context that has ended is not found, whatever became of its record.  The
contexts in use have different numbers.  They are counted right, as many as were made and have not
ended, and there are no more of them than records.  A new context is refused exactly when all
records are in use, and then nothing changes.  The state and the name are told to those who hold a
handle that is good.  Every request that goes by a handle is refused for what there is to say of it,
and only for that; and one that is answered is one more that was made. -/
theorem pool_answers_go_by_the_log {start m : Machine σ} {log : PoolLog}
    (fresh : (pool.get start).records = Vector.replicate poolCapacity {})
    (session : Session pool start log m) (few : drawn log < UInt64.size)
    (unheld : (pool.get m).lock.isHeldBy m.hart = false) :
    (∀ h, Answered pool (Contexts.validate pool h) m fun s _ =>
      (s = .ok ↔ Outstanding log h) ∧ ∀ s', s = s' ↔ Judges (live log) h s') ∧
    (∀ h, (.destroy h, .status .ok) ∈ log →
      Answered pool (Contexts.validate pool h) m fun s _ => s = .notFound) ∧
    ((live log).map (·.handle.id)).Nodup ∧
    (Answered pool (Contexts.activeCount pool) m fun n _ =>
      n = (live log).length ∧ n + ended log = made log ∧ n ≤ poolCapacity) ∧
    (∀ name, Answered pool (Contexts.create pool name) m fun a m' =>
      if (live log).length = poolCapacity then
        a = .error .full ∧ m' = (Contexts.lock pool).set ⟨false, noOwner⟩ m.asked
      else ∃ h, a = .ok h) ∧
    (∀ h, Answered pool (Contexts.access pool h fun r => (r.userState, r)) m fun a _ =>
      (∃ c ∈ live log, c.handle = h ∧ a = .ok c.state) ∨
        ∃ e, e ≠ .ok ∧ Judges (live log) h e ∧ a = .error e) ∧
    (∀ h, Answered pool (Contexts.access pool h fun r => (r.name, r)) m fun a _ =>
      (∃ c ∈ live log, c.handle = h ∧ a = .ok c.name) ∨
        ∃ e, e ≠ .ok ∧ Judges (live log) h e ∧ a = .error e) ∧
    ∀ r a m', Exec.runOn (PoolRequest.perform pool r) m = (.ok a, m') →
      (∀ h, r.handle? = some h → ∀ e, e ≠ .ok → (a = .status e ↔ Judges (live log) h e)) ∧
      ∃ meanwhile, Session pool start (meanwhile ++ (r, a) :: log) m' := by
  have hk : Desk.Kept start.nextContext log (m.desk pool) :=
    (session.serves apart observers).kept fresh few
  have hvalidate (h : Handle) : Answered pool (Contexts.validate pool h) m fun s _ =>
      Judges (live log) h s := by
    refine (validate_answered apart h unheld).mono fun s m' ⟨a, hs, ha⟩ => ?_
    have hsame : a = _ := congrArg Prod.fst ha
    rcases hk.access_of_reads h (g := fun _ => ()) (k := fun _ => ()) fun _ _ _ => rfl with
      ⟨c, hc, hhandle, heq⟩ | ⟨e, -, hjudge, heq⟩
    · rw [hs, hsame, heq]
      exact ⟨c, hc, hhandle⟩
    · rw [hs, hsame, heq]
      exact hjudge
  have hread {α : Type} (h : Handle) {g : ContextRecord → α} {k : Occupant → α}
      (hg : ∀ r c, r.occupant? = some c → g r = k c) :
      Answered pool (Contexts.access pool h fun r => (g r, r)) m fun a _ =>
        (∃ c ∈ live log, c.handle = h ∧ a = .ok (k c)) ∨
          ∃ e, e ≠ .ok ∧ Judges (live log) h e ∧ a = .error e := by
    refine (access_answered apart h _ unheld).mono fun a _ ha => ?_
    rw [show a = _ from congrArg Prod.fst ha]
    exact hk.access_of_reads h hg
  refine ⟨fun h => ?_, fun h hended => ?_, hk.distinct, ?_, fun name => ?_, fun h => ?_,
    fun h => ?_, fun r a m' returned => ?_⟩
  · refine (hvalidate h).mono fun s _ hjudge => ?_
    have hiff (s' : PoolStatus) : s = s' ↔ Judges (live log) h s' :=
      ⟨fun heq => heq ▸ hjudge, hjudge.unique hk.distinct⟩
    exact ⟨(hiff .ok).trans outstanding_iff.symm, hiff⟩
  · refine (hvalidate h).mono fun s _ hjudge => hjudge.unique hk.distinct ?_
    exact (hk.retired h hended).2
  · refine (activeCount_answered apart unheld).mono fun n _ heq => ?_
    have hcount : n = (live log).length := by
      rw [show n = _ from congrArg Prod.fst heq, Pool.activeCount_eq, hk.occupants.length_eq]
    have hroom := Pool.length_occupants_le (m.desk pool).pool
    rw [hk.occupants.length_eq] at hroom
    rw [hcount]
    exact ⟨rfl, hk.balance, hroom⟩
  · by_cases hfull : (live log).length = poolCapacity
    · simp only [if_pos hfull]
      exact create_of_full apart name (hk.vacant_eq_none_iff.2 hfull) unheld
    · simp only [if_neg hfull]
      refine (create_answered apart name unheld).mono fun a _ heq => ?_
      have ha : a = _ := congrArg Prod.fst heq
      rw [Desk.create] at ha
      cases hvacant : (m.desk pool).pool.vacant with
      | none => exact absurd (hk.vacant_eq_none_iff.1 hvacant) hfull
      | some i =>
        rw [hvacant] at ha
        exact ⟨_, ha⟩
  · refine hread h (k := Occupant.state) fun r c hc => ?_
    rw [(ContextRecord.of_occupant?_eq_some hc).2]
  · refine hread h (k := Occupant.name) fun r c hc => ?_
    rw [(ContextRecord.of_occupant?_eq_some hc).2]
  · obtain ⟨ha, meanwhile, others⟩ := r.serves apart observers (fun _ => unheld) returned
    refine ⟨fun h hr e he => ?_, meanwhile,
      .asked r meanwhile session (fun _ => unheld) returned others⟩
    rw [ha]
    exact hk.serve_eq_status_iff hr he

end

/-- A user of a pool who looks at nothing. -/
structure Lodger where
deriving Repr

namespace Lodger

instance : Client Lodger where
  trapHandler _ := return .pass
  errorHandler _ _ := return .unhandled
  command _ _ _ := return 0
  written _ := return

/-- A request, and the machine once it is carried out. -/
def after (m : Machine Lodger) (r : PoolRequest) : Machine Lodger :=
  (Exec.runOn (r.perform Machine.thePool) m).2

/-- A machine that nothing was asked of. -/
def blank : Machine Lodger where
  clients := {}

/-- The first context has ended, and its record is used for the second. -/
def settled : Machine Lodger :=
  after (after (after blank (.create "job")) (.destroy ⟨1, 0x5a18, 1⟩)) (.create "task")

def log : PoolLog :=
  [(.create "task", .made ⟨2, 0x5a19, 2⟩), (.destroy ⟨1, 0x5a18, 1⟩, .status .ok),
    (.create "job", .made ⟨1, 0x5a18, 1⟩)]

/-- A request that nobody interferes with. -/
theorem session_after {earlier : PoolLog} {m : Machine Lodger} {a : PoolAnswer} {r : PoolRequest}
    (session : Session Machine.thePool blank earlier m)
    (unheld : m.pool.lock.isHeldBy m.hart = false)
    (answered : (Exec.runOn (r.perform Machine.thePool) m).1 = .ok a)
    (settled : ((m.desk Machine.thePool).serve r).2 = (after m r).desk Machine.thePool) :
    Session Machine.thePool blank ((r, a) :: earlier) (after m r) :=
  .asked r [] session (fun _ => unheld) (Prod.ext answered rfl) (settled ▸ .nil)

theorem session : Session Machine.thePool blank log settled := by
  refine session_after (session_after (session_after .begins ?_ ?_ ?_) ?_ ?_ ?_) ?_ ?_ ?_ <;>
    decide +kernel

end Lodger

/-- The handle of the context that has ended is not found although its record is in use again, and
one with the version of the record's first use is stale. -/
theorem lodger_is_told_what_has_ended :
    (Answered Machine.thePool (Contexts.validate Machine.thePool ⟨1, 0x5a18, 1⟩) Lodger.settled
      fun s _ => s = .notFound) ∧
    (Answered Machine.thePool (Contexts.validate Machine.thePool ⟨2, 0x5a19, 1⟩) Lodger.settled
      fun s _ => s = .stale) ∧
    Answered Machine.thePool (Contexts.activeCount Machine.thePool) Lodger.settled
      fun n _ => n = 1 := by
  have apart : StandsApart (σ := Lodger) Machine.thePool :=
    { platform := fun _ _ => rfl, system := fun _ _ => rfl, pool := fun _ _ => rfl
      count := fun _ _ => rfl, number := fun _ _ => rfl }
  have observers (text : Text) :
      Exec.Leads (Client.written (σ := Lodger) text) (Attended Machine.thePool) := .pure ()
  have fresh : (Machine.thePool.get Lodger.blank).records = Vector.replicate poolCapacity {} := rfl
  have few : drawn Lodger.log < UInt64.size := by decide
  have unheld : (Machine.thePool.get Lodger.settled).lock.isHeldBy Lodger.settled.hart = false := by
    decide +kernel
  obtain ⟨hvalidate, hended, -, hcount, -⟩ :=
    pool_answers_go_by_the_log apart observers fresh Lodger.session few unheld
  refine ⟨?_, ?_, ?_⟩
  · exact hended _ (List.mem_cons_of_mem _ List.mem_cons_self)
  · refine (hvalidate _).mono fun s _ hs => (hs.2 .stale).2 ?_
    exact ⟨_, List.mem_cons_self, rfl, rfl, by decide⟩
  · exact hcount.mono fun n _ hn => hn.1

end Supervisor
