/-
The end of a context.

A context ends in two steps, under two locks: its record is closed in the pool, and then the
handlers bound to it are taken from the registry.  The second lock may be refused after the first
step is done.

* `StandsBeside` — what is asked of a pool;
* `runOn_locked_change` — a change of a pool under its lock;
* `runOn_purge` — what the second step does to the registry;
* `destroy_cases` — how a request to end a context goes on, from any machine;
* `destroy_clears_the_registry` — what holds once it has returned.

Design notes: the last line that is printed is shown to the clients, who may do anything.  What a
request has done is therefore said of the machine at that moment.
-/
import Supervisor.Contexts
import Supervisor.Proofs.Registry.Access

namespace Supervisor.Contexts

open Registry

variable {σ β : Type}

/-- A pool that is a part of neither the platform nor the trap system, nor they of it. -/
structure StandsBeside (pool : Part (Machine σ) Pool) : Prop where
  platform : pool.Apart Machine.thePlatform
  system : pool.Apart Machine.theSystem
  pool : Machine.theSystem.Apart pool

variable {pool : Part (Machine σ) Pool}

/-! ### The pool -/

theorem lock_apart_platform (beside : StandsBeside pool) :
    (lock pool).Apart Machine.thePlatform := fun p m => congrArg Pool.lock (beside.platform p m)

/-- A change under the lock of a pool is made if nobody holds the lock, by a function that does not
look at it.  Otherwise nothing happens, and the hart is turned away or waits. -/
theorem runOn_locked_change (beside : StandsBeside pool) (f : Pool → β × Pool) (refusal : β)
    (m : Machine σ) :
    ((pool.get m).lock.flag = false ∧ ∃ core m₁, m₁.system = m.system ∧
        pool.get m₁ =
          { (f { pool.get m with lock := ⟨true, core⟩ }).2 with lock := ⟨false, noOwner⟩ } ∧
        Exec.runOn (locked pool (pool.change f) (return refusal)) m =
          (.ok (f { pool.get m with lock := ⟨true, core⟩ }).1, m₁)) ∨
      ((pool.get m).lock.flag = true ∧ ∃ r m₁, (r = .ok refusal ∨ r = .error .waits) ∧
        m₁.system = m.system ∧ pool.get m₁ = pool.get m ∧
        Exec.runOn (locked pool (pool.change f) (return refusal)) m = (r, m₁)) := by
  cases hflag : (pool.get m).lock.flag with
  | false =>
    obtain ⟨core, p, -, hrun⟩ := runOn_locked System.asksHart_currentHart
      (lock_apart_platform beside) (pool.change f) (return refusal) hflag
    -- `m₀` has the lock taken, and is what the change finds
    set m₀ := (lock pool).set ⟨true, core⟩ (Machine.thePlatform.set p m) with hm₀
    have hpool₀ : pool.get m₀ = { pool.get m with lock := ⟨true, core⟩ } := by
      show pool.get (pool.set _ (Machine.thePlatform.set p m)) = _
      rw [Part.get_set, beside.platform p m]
    have hsystem₀ : m₀.system = m.system := beside.pool _ (Machine.thePlatform.set p m)
    refine .inl ⟨rfl, core, (lock pool).set ⟨false, noOwner⟩
      (pool.set (f (pool.get m₀)).2 m₀), ?_, ?_, ?_⟩
    · exact ((beside.pool _ _).trans (beside.pool _ m₀)).trans hsystem₀
    · show pool.get (pool.set _ (pool.set _ m₀)) = _
      rw [Part.get_set, Part.get_set, hpool₀]
    · rw [← hpool₀]
      exact hrun
  | true =>
    obtain ⟨_, r, p, -, hr, hrun⟩ := runOn_locked_of_taken System.asksHart_currentHart
      (lock_apart_platform beside) (pool.change f) refusal hflag
    exact .inr ⟨rfl, r, Machine.thePlatform.set p m, hr.imp_left And.right, rfl,
      beside.platform p m, hrun⟩

/-! ### The registry -/

/-- What takes the handlers bound to a context away: every bucket loses those and keeps the others
in order, and their number is told. -/
theorem purge_eq {r : Registry} {history : List Change} (reachable : r = Registry.run {} history)
    (context : ContextId) :
    (r.purge context).1 = r.countBound context ∧ ∀ t, ((r.purge context).2.bucket t).toList =
      (r.bucket t).toList.filter fun p => !p.terms.isBoundTo context := by
  have hcount (t : TrapType) : (r.bucket t).count ≤ bucketCapacity := by
    rw [reachable]
    exact (holds_run history t).wellFormed.count_le
  constructor
  · have hterms : (fun t => ((r.bucket t).removeAll (·.terms.isBoundTo context)).1) =
        fun t => (r.bucket t).toList.countP (·.terms.isBoundTo context) :=
      funext fun t => SlotTable.removeAll_fst (hcount t) _
    rw [purge, removeMatching, countBound, hterms]
  · intro t
    rw [purge, bucket_removeMatching]
    exact SlotTable.toList_removeAll (hcount t) _

/-- The second step is made if nobody holds the lock of the registry.  Otherwise the registry stays
as it is, and the hart is turned away or waits. -/
theorem runOn_purge (beside : StandsBeside pool) (context : ContextId) (m : Machine σ) :
    (m.system.lock.flag = false ∧ ∃ m₁, pool.get m₁ = pool.get m ∧
        m₁.system.registry = (m.system.registry.purge context).2 ∧
        Exec.runOn (System.purge context) m =
          (.ok ⟨.ok, (m.system.registry.purge context).1, 0⟩, m₁)) ∨
      (m.system.lock.flag = true ∧ ∃ r m₁, (r = .ok ⟨.locked, 0, 0⟩ ∨ r = .error .waits) ∧
        pool.get m₁ = pool.get m ∧ m₁.system.registry = m.system.registry ∧
        Exec.runOn (System.purge context) m = (r, m₁)) := by
  obtain ⟨p, ⟨hflag, hrun⟩ | ⟨hflag, r, hr, hrun⟩⟩ := System.runOn_locked_change
    (fun r => ((⟨.ok, (r.purge context).1, 0⟩ : System.Removal), (r.purge context).2))
    ⟨.locked, 0, 0⟩ m
  · -- the change is traced, which neither the pool nor the registry notices
    set m₀ := Machine.theSystem.set _ (Machine.thePlatform.set p m)
    have hpool₀ : pool.get m₀ = pool.get m := (beside.system _ _).trans (beside.platform p m)
    obtain ⟨_, m₁, hnote⟩ := System.note_returns .contextCleanup "purge" context m₀
    have hpool₁ : pool.get m₁ = pool.get m₀ :=
      (System.note_keeps (fun m => beside.platform _ m)
        (fun t m => beside.system { m.system with trace := t } m) _ _ _).of_runOn hnote
    have hregistry₁ : m₁.system.registry = m₀.system.registry :=
      (System.note_keeps_registry _ _ _).of_runOn hnote
    refine .inl ⟨hflag, m₁, hpool₁.trans hpool₀, hregistry₁, ?_⟩
    rw [System.purge, Exec.runOn_bind_of_ok hrun, if_pos rfl, Exec.runOn_bind_of_ok hnote]
    rfl
  · refine .inr ⟨hflag, r, Machine.thePlatform.set p m, hr, beside.platform p m, rfl, ?_⟩
    rcases hr with rfl | rfl
    · rw [System.purge, Exec.runOn_bind_of_ok hrun]
      rfl
    · rw [System.purge, Exec.runOn_bind_of_error hrun]

/-! ### The end of a context -/

/-- The first step: closes the record that a handle fits. -/
def closeRecord (h : Handle) (p : Pool) : Except PoolStatus Unit × Pool :=
  match p.locate h with
  | .error e => (.error e, p)
  | .ok i => (.ok (), p.terminate i)

/-- What the operator is told after the second step. -/
def endLine (h : Handle) (removal : System.Removal) : List Text :=
  if removal.status = .ok then
    ["[TRAP] context ", Numeral.decimal h.id.toNat, " terminated, ",
      Numeral.decimal removal.removed, " handlers cleaned up\n"]
  else
    ["[ERROR] context ", Numeral.decimal h.id.toNat,
      ": handler cleanup skipped, registry busy\n"]

theorem closeRecord_of_error {h : Handle} {p : Pool} {e : PoolStatus} (he : p.locate h = .error e)
    (l : Spinlock) :
    closeRecord h { p with lock := l } = (.error e, { p with lock := l }) := by
  have hl : ({ p with lock := l } : Pool).locate h = .error e := he
  rw [closeRecord, hl]

theorem closeRecord_of_ok {h : Handle} {p : Pool} {i : Fin poolCapacity} (hi : p.locate h = .ok i)
    (l : Spinlock) :
    closeRecord h { p with lock := l } = (.ok (), { p.terminate i with lock := l }) := by
  have hl : ({ p with lock := l } : Pool).locate h = .ok i := hi
  rw [closeRecord, hl]
  rfl

variable [Client σ]

/-- The second step: the handlers bound to the context go, and the operator is told. -/
def clear (h : Handle) : Exec σ (Except PoolStatus Nat) := do
  let removal ← System.purge h.id
  putLine (← System.console) (endLine h removal)
  return .ok removal.removed

theorem destroy_eq (pool : Part (Machine σ) Pool) (h : Handle) :
    destroy pool h = locked pool (pool.change (closeRecord h)) (return .error .busy) >>= fun
      | .error e => return .error e
      | .ok () => clear h := by
  rw [destroy]
  refine congrArg (_ >>= ·) (funext fun ended => ?_)
  cases ended with
  | error e => rfl
  | ok u =>
    refine congrArg (_ >>= ·) (funext fun removal => congrArg (_ >>= ·) (funext fun sink => ?_))
    rw [endLine]
    split <;> rfl

/-- A request goes by the pool first.  It ends there, or the record is closed and it goes on. -/
theorem runOn_destroy (beside : StandsBeside pool) (h : Handle) (m : Machine σ) :
    ∃ m₁, m₁.system = m.system ∧
      (((pool.get m).lock.flag = true ∧ pool.get m₁ = pool.get m ∧
          (Exec.runOn (destroy pool h) m = (.ok (.error .busy), m₁) ∨
            Exec.runOn (destroy pool h) m = (.error .waits, m₁))) ∨
        ((pool.get m).lock.flag = false ∧ ∃ e, (pool.get m).locate h = .error e ∧
          pool.get m₁ = { pool.get m with lock := ⟨false, noOwner⟩ } ∧
          Exec.runOn (destroy pool h) m = (.ok (.error e), m₁)) ∨
        ((pool.get m).lock.flag = false ∧ ∃ i, (pool.get m).locate h = .ok i ∧
          pool.get m₁ = { (pool.get m).terminate i with lock := ⟨false, noOwner⟩ } ∧
          Exec.runOn (destroy pool h) m = Exec.runOn (clear h) m₁)) := by
  rw [destroy_eq]
  rcases runOn_locked_change beside (closeRecord h) (.error .busy) m with
    ⟨hflag, core, m₁, hsystem, hpool, hrun⟩ | ⟨hflag, r, m₁, hr, hsystem, hpool, hrun⟩
  · refine ⟨m₁, hsystem, .inr ?_⟩
    cases hi : (pool.get m).locate h with
    | error e =>
      rw [closeRecord_of_error hi] at hpool hrun
      exact .inl ⟨hflag, e, rfl, hpool, Exec.runOn_bind_of_ok hrun⟩
    | ok i =>
      rw [closeRecord_of_ok hi] at hpool hrun
      exact .inr ⟨hflag, i, rfl, hpool, Exec.runOn_bind_of_ok hrun⟩
  · refine ⟨m₁, hsystem, .inl ⟨hflag, hpool, ?_⟩⟩
    rcases hr with rfl | rfl
    · exact .inl (Exec.runOn_bind_of_ok hrun)
    · exact .inr (Exec.runOn_bind_of_error hrun)

/-- The operator is told last. -/
theorem told_of_clear {h : Handle} {removal : System.Removal} {m m₁ m' : Machine σ}
    {answer : Except PoolStatus Nat} (hpurge : Exec.runOn (System.purge h.id) m = (.ok removal, m₁))
    (returned : Exec.runOn (clear h) m = (.ok answer, m')) :
    answer = .ok removal.removed ∧
      ∃ sink, Exec.runOn (putLine sink (endLine h removal)) m₁ = (.ok (), m') := by
  rw [clear, Exec.runOn_bind_of_ok hpurge] at returned
  obtain ⟨sink, m₂, hconsole, hrest⟩ := Exec.of_runOn_bind_eq_ok returned
  have hsame : m₂ = m₁ := congrArg Prod.snd hconsole.symm
  obtain ⟨_, m₃, hline, hanswer⟩ := Exec.of_runOn_bind_eq_ok hrest
  rw [hsame] at hline
  rw [Exec.runOn_pure] at hanswer
  obtain rfl : m₃ = m' := congrArg Prod.snd hanswer
  exact ⟨(Except.ok.inj (congrArg Prod.fst hanswer)).symm, sink, hline⟩

/-- **The end of a context clears the registry while nobody holds its lock.**  A request that is
refused says why, and leaves the pool and the registry as they were.  One that succeeds has closed
the record of its handle.  At the moment when the operator is told, the handlers bound to the
context are gone if the lock of the registry was free, the others are in their buckets in order,
and the answer is how many went; if the hart held that lock itself, the registry is as it was, the
answer is zero, and the operator is told so. -/
theorem destroy_clears_the_registry (beside : StandsBeside pool) {m m' : Machine σ}
    {history : List Change} (reachable : m.system.registry = Registry.run {} history) {h : Handle}
    {answer : Except PoolStatus Nat} (returned : Exec.runOn (destroy pool h) m = (.ok answer, m')) :
    (∀ e, answer = .error e →
      (if (pool.get m).lock.flag then e = .busy else (pool.get m).locate h = .error e) ∧
      m'.system = m.system ∧ (pool.get m').records = (pool.get m).records ∧
      (pool.get m').lastToken = (pool.get m).lastToken ∧
      (pool.get m').lock.flag = (pool.get m).lock.flag) ∧
    ∀ n, answer = .ok n → ∃ i m₁ sink,
      (pool.get m).locate h = .ok i ∧
      pool.get m₁ = { (pool.get m).terminate i with lock := ⟨false, noOwner⟩ } ∧
      (if m.system.lock.flag then
        n = 0 ∧ m₁.system.registry = m.system.registry ∧
          Exec.runOn (putLine sink (endLine h ⟨.locked, 0, 0⟩)) m₁ = (.ok (), m')
      else
        n = m.system.registry.countBound h.id ∧
          (∀ t, (m₁.system.registry.bucket t).toList =
            (m.system.registry.bucket t).toList.filter fun p => !p.terms.isBoundTo h.id) ∧
          Exec.runOn (putLine sink (endLine h ⟨.ok, n, 0⟩)) m₁ = (.ok (), m')) := by
  obtain ⟨m₁, hsystem, ⟨hflag, hpool, hrun⟩ | ⟨hflag, e, he, hpool, hrun⟩ |
    ⟨hflag, i, hi, hpool, hrun⟩⟩ := runOn_destroy beside h m
  · -- the lock of the pool is taken, and a request that returns was turned away
    obtain ⟨rfl, rfl⟩ : answer = .error .busy ∧ m' = m₁ := by
      rcases hrun with hrun | hrun
      · have heq := returned.symm.trans hrun
        exact ⟨Except.ok.inj (congrArg Prod.fst heq), congrArg Prod.snd heq⟩
      · have heq := returned.symm.trans hrun
        cases congrArg Prod.fst heq
    refine ⟨fun e he => ?_, nofun⟩
    obtain rfl := Except.error.inj he
    rw [hpool, if_pos hflag]
    exact ⟨rfl, hsystem, rfl, rfl, rfl⟩
  · -- no record fits the handle
    have heq := returned.symm.trans hrun
    obtain rfl : answer = .error e := Except.ok.inj (congrArg Prod.fst heq)
    obtain rfl : m' = m₁ := congrArg Prod.snd heq
    refine ⟨fun d hd => ?_, nofun⟩
    obtain rfl := Except.error.inj hd
    rw [hpool, hflag]
    exact ⟨he, hsystem, rfl, rfl, rfl⟩
  · -- the record is closed, and the handlers are looked for
    rw [hrun] at returned
    rcases runOn_purge beside h.id m₁ with
      ⟨hfree, m₂, hpool₂, hregistry, hpurge⟩ | ⟨htaken, r, m₂, hr, hpool₂, hregistry, hpurge⟩
    · rw [hsystem] at hfree hregistry hpurge
      obtain ⟨rfl, sink, htold⟩ := told_of_clear hpurge returned
      obtain ⟨hcount, hbuckets⟩ := purge_eq reachable h.id
      refine ⟨nofun, fun n hn => ?_⟩
      obtain rfl := Except.ok.inj hn
      refine ⟨i, m₂, sink, hi, hpool₂.trans hpool, ?_⟩
      rw [hfree, if_neg Bool.false_ne_true]
      refine ⟨hcount, fun t => ?_, htold⟩
      rw [hregistry]
      exact hbuckets t
    · rcases hr with rfl | rfl
      · obtain ⟨rfl, sink, htold⟩ := told_of_clear hpurge returned
        rw [hsystem] at htaken hregistry
        refine ⟨nofun, fun n hn => ?_⟩
        obtain rfl := Except.ok.inj hn
        refine ⟨i, m₂, sink, hi, hpool₂.trans hpool, ?_⟩
        rw [if_pos htaken]
        exact ⟨rfl, hregistry, htold⟩
      · -- another hart holds the lock of the registry, and the request does not return
        rw [clear, Exec.runOn_bind_of_error hpurge] at returned
        cases congrArg Prod.fst returned

/-- A client that ends a context when the listing of the handlers begins. -/
structure Warden where
  /-- What became of that. -/
  answer : Option (Except PoolStatus Nat) := none
  /-- How many handlers were bound to the context right after it. -/
  left : Nat := 0

namespace Warden

/-- The handle of the context. -/
def handle : Handle := ⟨1, 0x5a18, 1⟩

/-- The client that looks on while a context ends. -/
@[reducible] def bystander : Client Warden where
  trapHandler _ := return .pass
  errorHandler _ _ := return .unhandled
  command _ _ _ := return 0
  written _ := return

instance : Client Warden where
  trapHandler _ := return .pass
  errorHandler _ _ := return .unhandled
  command _ _ _ := return 0
  written text := do
    if text = Text.ofString "=== Registered trap handlers ===\n" then
      let answer ← @destroy Warden bystander Machine.thePool handle
      modify fun m => { m with
        clients := ⟨some answer, m.system.registry.countBound handle.id⟩ }

/-- The registrations of two handlers that are bound to the context and of one that is not. -/
def registrations : List Change :=
  [.add .timerInterrupt ⟨some (.client 0), some "clock", ⟨60, .user, 7, some 1⟩⟩,
    .add .timerInterrupt ⟨some (.client 1), some "watchdog", ⟨40, .system, 0, none⟩⟩,
    .add .systemCall ⟨some (.client 2), some "calls", ⟨100, .system, 0, some 1⟩⟩]

/-- A machine with one context. -/
def machine : Machine Warden where
  system.bound := true
  system.ready := true
  system.registry := Registry.run {} registrations
  pool := (Pool.create {} ⟨0, by decide⟩ 1 "job").2
  clients := {}

end Warden

/-- With the lock of the registry free, both handlers go with their context. -/
theorem warden_clears_the_registry :
    ∃ m₁ m' : Machine Warden, ∃ sink,
      Exec.runOn (destroy Machine.thePool Warden.handle) Warden.machine = (.ok (.ok 2), m') ∧
      (∀ t, (m₁.system.registry.bucket t).toList =
        (Warden.machine.system.registry.bucket t).toList.filter fun p => !p.terms.isBoundTo 1) ∧
      Exec.runOn (putLine sink (endLine Warden.handle ⟨.ok, 2, 0⟩)) m₁ = (.ok (), m') := by
  have beside : StandsBeside (σ := Warden) Machine.thePool :=
    ⟨fun _ _ => rfl, fun _ _ => rfl, fun _ _ => rfl⟩
  have hended : (Exec.runOn (destroy Machine.thePool Warden.handle) Warden.machine).1 =
      .ok (.ok 2) := by decide +kernel
  have returned : Exec.runOn (destroy Machine.thePool Warden.handle) Warden.machine =
      (.ok (.ok 2), (Exec.runOn (destroy Machine.thePool Warden.handle) Warden.machine).2) :=
    Prod.ext hended rfl
  have reachable : Warden.machine.system.registry = Registry.run {} Warden.registrations := rfl
  obtain ⟨-, hended⟩ := destroy_clears_the_registry beside reachable returned
  obtain ⟨i, m₁, sink, -, -, hcleared⟩ := hended 2 rfl
  rw [if_neg (by decide)] at hcleared
  exact ⟨m₁, _, sink, returned, hcleared.2.1, hcleared.2.2⟩

/-- While the hart prints the handlers it holds the lock of the registry.  A context that ends then
leaves both of its handlers behind, and the answer is a success. -/
theorem context_is_outlived_by_its_handlers :
    let after := (Exec.runOn System.printHandlers Warden.machine).2
    after.clients.answer = some (.ok 0) ∧ after.clients.left = 2 := by
  decide +kernel

end Supervisor.Contexts
