/-
What a hart can do while it holds the lock of the registry.

The registry is printed under its lock, and whoever observes the console may call the trap system
then, on the same hart.  Every such call is turned away.

* `Machine.HoldsRegistry` — the running hart holds the lock of the registry;
* `Undisturbed` — the registry and its lock are as they were, and the trace tells of no change;
* `Exec.ComesTo x y` — on a hart that holds the lock, `x` does what `y` does and disturbs nothing;
* `Refused x y` — `y` is the tree of calls `x` with every call turned away;
* `held_registry_turns_calls_away` — every tree of calls comes to its refusals.

Design notes: the observers of a trap that is taken by an observer are clients of their own, so a
tree of calls has a depth.
-/
import Supervisor.Proofs.Trap.Snapshot

namespace Supervisor

variable {σ α β : Type}

/-! ### Under the lock -/

/-- The running hart holds the lock of the registry. -/
def Machine.HoldsRegistry (m : Machine σ) : Prop := m.system.lock.isHeldBy m.hart = true

/-- A call that is turned away asks for the number of the hart and answers `a`. -/
def refusal (a : α) : Exec σ α := do
  let _ ← System.currentHart
  return a

theorem runOn_refusal (a : α) (m : Machine σ) :
    Exec.runOn (refusal a) m = (.ok a, m.asked) := by
  rw [refusal, Exec.runOn_bind_of_ok (System.runOn_currentHart m), Exec.runOn_pure]

/-- Under the lock of the registry, whoever holds it already is turned away. -/
theorem System.runOn_locked_of_holds {m : Machine σ} (h : m.HoldsRegistry) (body : Exec σ α)
    (a : α) : Exec.runOn (System.locked body (return a)) m = (.ok a, m.asked) := by
  have hflag : m.system.lock.flag = true := (Bool.and_eq_true_iff.1 h).1
  exact (runOn_withLock_of_taken lock_apart_platform body a hflag).trans
    (congrArg (·, m.asked) (if_pos h))

/-- Whether an event tells of a change of the registry. -/
def EventKind.tellsOfChange : EventKind → Bool
  | .handlerAdded | .handlerRemoved | .contextCleanup => true
  | _ => false

/-- The registry and its lock are as they were, the hart goes by the same number, and the events
that were recorded tell of no change. -/
structure Undisturbed (m m' : Machine σ) : Prop where
  registry : m'.system.registry = m.system.registry
  lock : m'.system.lock = m.system.lock
  hart : m'.hart = m.hart
  trace : ∃ events : List TraceEvent, (∀ e ∈ events, e.kind.tellsOfChange = false) ∧
    m'.system.trace.events = events.foldl Ring.push m.system.trace.events

namespace Undisturbed

variable {m m' : Machine σ}

instance : IsPreorder (Machine σ) Undisturbed where
  refl _ := ⟨rfl, rfl, rfl, [], fun _ he => absurd he List.not_mem_nil, rfl⟩
  trans _ _ _ h h' := by
    obtain ⟨events, hevents, htrace⟩ := h.trace
    obtain ⟨events', hevents', htrace'⟩ := h'.trace
    refine ⟨h'.registry.trans h.registry, h'.lock.trans h.lock, h'.hart.trans h.hart,
      events ++ events', fun e he => ?_, ?_⟩
    · rcases List.mem_append.1 he with he | he
      · exact hevents e he
      · exact hevents' e he
    · rw [htrace', htrace, List.foldl_append]

theorem holdsRegistry (h : Undisturbed m m') (hm : m.HoldsRegistry) : m'.HoldsRegistry := by
  rw [Machine.HoldsRegistry, h.lock, h.hart]
  exact hm

/-- Nothing is recorded. -/
theorem of_eq (hregistry : m'.system.registry = m.system.registry)
    (hlock : m'.system.lock = m.system.lock) (htrace : m'.system.trace = m.system.trace)
    (hhart : m'.hart = m.hart) : Undisturbed m m' :=
  ⟨hregistry, hlock, hhart, [], fun _ he => absurd he List.not_mem_nil, by rw [htrace]; rfl⟩

theorem asked (m : Machine σ) : Undisturbed m m.asked :=
  of_eq (by rw [m.system_asked]) (by rw [m.system_asked]) (by rw [m.system_asked]) m.hart_asked

/-- A change of the platform that leaves the number of the hart alone. -/
theorem set_platform {p : Platform} (h : p.hartId.1 = m.platform.hartId.1) :
    Undisturbed m (Machine.thePlatform.set p m) := of_eq rfl rfl rfl (Machine.hart_congr rfl h)

theorem write (t : Text) (m : Machine σ) :
    Undisturbed m (Machine.thePlatform.set (m.platform.write t) m) :=
  set_platform (Platform.hartId_fst_congr rfl rfl rfl)

theorem record {kind : EventKind} (h : kind.tellsOfChange = false) (now : UInt64) (name : Text)
    (value : UInt64) (m : Machine σ) : Undisturbed m
      (Machine.theTrace.set (m.system.trace.record now kind name value) m) := by
  cases henabled : m.system.trace.enabled with
  | false =>
    rw [Trace.record_of_disabled henabled]
    exact refl_of Undisturbed m
  | true =>
    refine ⟨rfl, rfl, rfl,
      [⟨if m.system.trace.clocked then now else 0, kind, name, value⟩], fun e he => ?_, ?_⟩
    · rw [List.mem_singleton.1 he]
      exact h
    · show (m.system.trace.record now kind name value).events = _
      rw [Trace.record, if_pos henabled]
      rfl

end Undisturbed

/-- A note that tells of no change disturbs nothing. -/
theorem System.note_undisturbed {kind : EventKind} (h : kind.tellsOfChange = false) (name : Text)
    (value : UInt64) : Exec.Leads (System.note (σ := σ) kind name value) Undisturbed := by
  have hclock : Exec.Leads (readClock (σ := σ)) Undisturbed :=
    fun _ => .set_platform (Platform.hartId_fst_congr rfl rfl rfl)
  have hrecord (now : UInt64) : Exec.Leads (do
      Machine.theTrace.update (·.record now kind name value)
      return true) (Undisturbed (σ := σ)) :=
    .bind (fun m => .record h now name value m) fun _ => .pure true
  refine .bind (.bind (.read _) fun t => .ite ?_ (.pure false)) fun _ => .pure ()
  exact .ite (.bind hclock hrecord) (.bind (.pure 0) hrecord)

theorem System.currentHart_undisturbed :
    Exec.Leads (System.currentHart (σ := σ)) Undisturbed := by
  intro m
  rw [runOn_currentHart]
  exact .asked m

/-! ### One action for another -/

/-- On a hart that holds the lock of the registry, `x` does what `y` does and disturbs nothing. -/
def Exec.ComesTo (x y : Exec σ α) : Prop :=
  ∀ m : Machine σ, m.HoldsRegistry → Exec.runOn x m = Exec.runOn y m ∧
    Undisturbed m (Exec.runOn x m).2

/-- The same for an action of a trap. -/
def TrapExec.ComesTo (x y : TrapExec σ α) : Prop :=
  ∀ f (m : Machine σ), m.HoldsRegistry → TrapExec.runOn x f m = TrapExec.runOn y f m ∧
    Undisturbed m (TrapExec.runOn x f m).2

namespace Exec.ComesTo

theorem of_leads {x : Exec σ α} (h : Exec.Leads x Undisturbed) : ComesTo x x :=
  fun m _ => ⟨rfl, h m⟩

theorem pure (a : α) : ComesTo (Pure.pure a : Exec σ α) (Pure.pure a) := of_leads (.pure a)

theorem bind {x y : Exec σ α} {f g : α → Exec σ β} (hx : ComesTo x y)
    (hf : ∀ a, ComesTo (f a) (g a)) : ComesTo (x >>= f) (y >>= g) := by
  intro m hm
  obtain ⟨hsame, hundisturbed⟩ := hx m hm
  cases hrun : Exec.runOn x m with
  | mk r m' =>
    rw [hrun] at hsame hundisturbed
    cases r with
    | ok a =>
      rw [Exec.runOn_bind_of_ok hrun, Exec.runOn_bind_of_ok hsame.symm]
      obtain ⟨hthen, hafter⟩ := hf a m' (hundisturbed.holdsRegistry hm)
      exact ⟨hthen, trans_of Undisturbed hundisturbed hafter⟩
    | error e =>
      rw [Exec.runOn_bind_of_error hrun, Exec.runOn_bind_of_error hsame.symm]
      exact ⟨rfl, hundisturbed⟩

theorem tryCatch {x y : Exec σ α} {h k : Stop → Exec σ α} (hx : ComesTo x y)
    (hh : ∀ e, ComesTo (h e) (k e)) : ComesTo (tryCatch x h) (tryCatch y k) := by
  intro m hm
  obtain ⟨hsame, hundisturbed⟩ := hx m hm
  rw [Exec.runOn_tryCatch, Exec.runOn_tryCatch, ← hsame]
  cases hrun : Exec.runOn x m with
  | mk r m' =>
    rw [hrun] at hundisturbed
    cases r with
    | ok a => exact ⟨rfl, hundisturbed⟩
    | error e =>
      obtain ⟨hthen, hafter⟩ := hh e m' (hundisturbed.holdsRegistry hm)
      exact ⟨hthen, trans_of Undisturbed hundisturbed hafter⟩

theorem ite {c : Prop} [Decidable c] {x y x' y' : Exec σ α} (hx : ComesTo x x')
    (hy : ComesTo y y') : ComesTo (if c then x else y) (if c then x' else y') := by
  split
  · exact hx
  · exact hy

theorem forM {l : List β} {f g : β → Exec σ PUnit} (h : ∀ a, ComesTo (f a) (g a)) :
    ComesTo (l.forM f) (l.forM g) := by
  induction l with
  | nil => exact pure _
  | cons a l ih => exact bind (h a) fun _ => ih

/-- A call under the lock is turned away. -/
theorem locked (body : Exec σ α) (a : α) :
    ComesTo (System.locked body (return a)) (refusal a) := by
  intro m hm
  rw [System.runOn_locked_of_holds hm, runOn_refusal]
  exact ⟨rfl, .asked m⟩

/-- A call that goes on after it was turned away goes on with the answer that it was given. -/
theorem locked_bind {body : Exec σ β} {b : β} {f : β → Exec σ α} {a : α}
    (h : f b = Pure.pure a) :
    ComesTo (System.locked body (return b) >>= f) (refusal a) := by
  intro m hm
  rw [Exec.runOn_bind_of_ok (System.runOn_locked_of_holds hm body b), h, runOn_refusal]
  exact ⟨rfl, .asked m⟩

end Exec.ComesTo

namespace TrapExec.ComesTo

theorem bind {x y : TrapExec σ α} {k l : α → TrapExec σ β} (hx : ComesTo x y)
    (hk : ∀ a, ComesTo (k a) (l a)) : ComesTo (x >>= k) (y >>= l) := by
  intro f m hm
  obtain ⟨hsame, hundisturbed⟩ := hx f m hm
  rw [TrapExec.runOn_bind, TrapExec.runOn_bind, ← hsame]
  cases hrun : TrapExec.runOn x f m with
  | mk r m' =>
    obtain ⟨r, f'⟩ := r
    rw [hrun] at hundisturbed
    cases r with
    | ok a =>
      obtain ⟨hthen, hafter⟩ := hk a f' m' (hundisturbed.holdsRegistry hm)
      exact ⟨hthen, trans_of Undisturbed hundisturbed hafter⟩
    | error e => exact ⟨rfl, hundisturbed⟩

theorem ite {c : Prop} [Decidable c] {x y x' y' : TrapExec σ α} (hx : ComesTo x x')
    (hy : ComesTo y y') : ComesTo (if c then x else y) (if c then x' else y') := by
  split
  · exact hx
  · exact hy

theorem onMachine {x y : Exec σ α} (h : Exec.ComesTo x y) :
    ComesTo (onMachine x) (onMachine y) := by
  intro f m hm
  obtain ⟨hsame, hundisturbed⟩ := h m hm
  rw [TrapExec.runOn_onMachine, TrapExec.runOn_onMachine, hsame]
  rw [hsame] at hundisturbed
  exact ⟨rfl, hundisturbed⟩

/-- An action that is concerned with the frame alone. -/
theorem of_machine_eq {x : TrapExec σ α} (h : ∀ f m, (TrapExec.runOn x f m).2 = m) :
    ComesTo x x := by
  intro f m _
  rw [h]
  exact ⟨rfl, refl_of Undisturbed m⟩

end TrapExec.ComesTo

/-! ### Traps -/

section

variable {client calm : Client σ}
  (observers : ∀ text, Exec.ComesTo (client.written text) (calm.written text))

include observers

theorem puts_comesTo (sink : Sink) (t : Text) :
    Exec.ComesTo (@puts σ client sink t) (@puts σ calm sink t) := by
  cases sink with
  | nowhere => exact .pure ()
  | console => exact .bind (.of_leads fun m => .write _ m) fun _ => observers _

theorem putLine_comesTo (sink : Sink) (pieces : List Text) :
    Exec.ComesTo (@putLine σ client sink pieces) (@putLine σ calm sink pieces) :=
  puts_comesTo observers sink _

theorem say_comesTo (sink : Sink) (pieces : List Text) :
    TrapExec.ComesTo (@say σ client sink pieces) (@say σ calm sink pieces) :=
  .onMachine (putLine_comesTo observers sink pieces)

theorem openTrap_comesTo (f : Frame) :
    Exec.ComesTo (@openTrap σ client f) (@openTrap σ calm f) := by
  have henter (core : UInt32) : Exec.Leads (enterTrap (σ := σ) core f) Undisturbed := by
    intro m
    rw [enterTrap, Exec.runOn_bind_of_ok (Exec.runOn_get m)]
    split
    · exact .write _ m
    · exact .of_eq rfl rfl rfl rfl
  have hannounce (sink : Sink) : Exec.ComesTo (@announceTrap σ client f.trapType f sink)
      (@announceTrap σ calm f.trapType f sink) :=
    .bind (.of_leads .get) fun _ => .ite (putLine_comesTo observers _ _) (.pure _)
  exact .bind (.of_leads System.currentHart_undisturbed) fun core =>
    .bind (.of_leads (henter core)) fun _ =>
    .bind (.of_leads (System.note_undisturbed rfl _ _)) fun _ =>
    .bind (.of_leads (.bind .get fun _ => .pure _)) fun sink =>
    .bind (hannounce sink) fun _ => .pure _

theorem fallback_comesTo (t : TrapType) :
    TrapExec.ComesTo (@fallback σ client t) (@fallback σ calm t) := by
  have hsay := say_comesTo observers
  have hskip : TrapExec.ComesTo (skipInstruction (σ := σ)) skipInstruction :=
    .of_machine_eq fun _ _ => rfl
  refine .bind (.of_machine_eq fun _ _ => rfl) fun f => ?_
  refine .bind (.onMachine (.of_leads (.bind .get fun _ => .pure _))) fun sink => ?_
  cases t with
  | systemCall => exact .bind (hsay _ _) fun _ => hskip
  | breakpoint => exact .bind (hsay _ _) fun _ => hskip
  | softwareInterrupt =>
    exact .onMachine (.of_leads fun m => .of_eq rfl rfl rfl
      (Machine.hart_congr rfl (Platform.hartId_fst_congr rfl rfl rfl)))
  | timerInterrupt =>
    have hdisarm : Exec.Leads (disarmTimer (σ := σ)) Undisturbed :=
      fun _ => .set_platform (Platform.hartId_fst_congr rfl rfl rfl)
    refine .bind (.onMachine (.of_leads (.bind .get fun _ => .pure _))) fun reachable => ?_
    cases reachable with
    | false => exact hsay _ _
    | true => exact .bind (.onMachine (.of_leads hdisarm)) fun _ => hsay _ _
  | _ => exact hsay _ _

omit observers in
theorem closeTrap_undisturbed (core : UInt32) (t : TrapType) (handled : Bool) :
    Exec.Leads (closeTrap (σ := σ) core t handled) Undisturbed := by
  refine .bind (System.note_undisturbed rfl _ _) fun _ m => ?_
  rw [leaveTrap, Exec.runOn_bind_of_ok (Exec.runOn_get m)]
  split
  · exact .write _ m
  · exact .of_eq rfl rfl rfl rfl

theorem unattended_comesTo (core : UInt32) (t : TrapType) (sink : Sink) :
    TrapExec.ComesTo (@unattended σ client core t sink) (@unattended σ calm core t sink) :=
  .bind (say_comesTo observers _ _) fun _ => .bind (fallback_comesTo observers t) fun _ =>
    .onMachine (.of_leads (closeTrap_undisturbed core t false))

end

section

variable [Client σ]

/-- Takes the trap of the frame without offering it to anybody. -/
def takeUnattended : TrapExec σ Unit := do
  unless (← getThe (Machine σ)).system.ready do
    onMachine (panic "trap taken before trap system initialization")
  let f ← theFrame
  let (core, sink) ← onMachine (openTrap f)
  let _ ← onMachine System.currentHart
  unattended core f.trapType sink

/-- On a hart that holds the lock of the registry a trap is offered to nobody. -/
theorem runOn_serveTrap_of_holds {m : Machine σ} (h : m.HoldsRegistry) (core : UInt32)
    (t : TrapType) (sink : Sink) (f : Frame) :
    TrapExec.runOn (serveTrap core t sink) f m =
      TrapExec.runOn (unattended core t sink) f m.asked := by
  have hentries : Exec.runOn (entriesFor t sink) m = Exec.runOn (do
      putLine sink ["[TRAP] registry held by this hart, ", t.name, " goes to fallback\n"]
      return []) m.asked := by
    rw [entriesFor, Exec.runOn_bind_of_ok (System.runOn_locked_of_holds h _ none)]
  rw [serveTrap, unattended, TrapExec.runOn_bind, TrapExec.runOn_onMachine, hentries,
    TrapExec.runOn_bind, say, TrapExec.runOn_onMachine, Exec.runOn_bind]
  cases Exec.runOn (putLine sink _) m.asked with
  | mk r m' => cases r <;> rfl

end

/-- A trap on a hart that holds the lock of the registry is offered to nobody, whatever the
handlers are. -/
theorem takeTrap_comesTo {client calm : Client σ}
    (observers : ∀ text, Exec.ComesTo (client.written text) (calm.written text)) :
    TrapExec.ComesTo (@takeTrap σ client) (@takeUnattended σ calm) := by
  have hserve (core : UInt32) (t : TrapType) (sink : Sink) :
      TrapExec.ComesTo (@serveTrap σ client core t sink) (do
        let _ ← onMachine System.currentHart
        @unattended σ calm core t sink) := by
    intro f m hm
    have hasked : TrapExec.runOn (onMachine System.currentHart) f m =
        ((.ok m.hart, f), m.asked) := by
      rw [TrapExec.runOn_onMachine, System.runOn_currentHart]
    obtain ⟨hsame, hundisturbed⟩ := unattended_comesTo observers core t sink f m.asked
      ((Undisturbed.asked m).holdsRegistry hm)
    rw [@runOn_serveTrap_of_holds σ client m hm core t sink f, TrapExec.runOn_bind_of_ok hasked]
    exact ⟨hsame, trans_of Undisturbed (.asked m) hundisturbed⟩
  have hgo : TrapExec.ComesTo (σ := σ) (do
        let f ← theFrame
        let (core, sink) ← onMachine (@openTrap σ client f)
        @serveTrap σ client core f.trapType sink) (do
        let f ← theFrame
        let (core, sink) ← onMachine (@openTrap σ calm f)
        let _ ← onMachine System.currentHart
        @unattended σ calm core f.trapType sink) :=
    .bind (.of_machine_eq fun _ _ => rfl) fun f =>
      .bind (.onMachine (openTrap_comesTo observers f)) fun opened => hserve opened.1 _ opened.2
  have hpanic (text : Text) : Exec.Leads (panic text : Exec σ Unit) Undisturbed :=
    .bind (fun m => .write _ m) fun _ => .throw _
  refine .bind (.of_machine_eq fun _ _ => rfl) fun m => .ite hgo ?_
  exact .bind (.onMachine (.of_leads (hpanic _))) fun _ => hgo

/-! ### Trees of calls -/

/-- `x` is a tree of calls of the trap system, with anything between them that disturbs nothing, and
`y` is that tree with every call turned away.  The traps of the tree may have any handlers; those
who observe what such a trap writes may make calls in turn. -/
inductive Refused : {γ : Type} → Exec σ γ → Exec σ γ → Prop
  | other {γ} {x : Exec σ γ} (undisturbing : Exec.Leads x Undisturbed) : Refused x x
  | bind {γ δ} {x y : Exec σ γ} {f g : γ → Exec σ δ} (first : Refused x y)
      (rest : ∀ a, Refused (f a) (g a)) : Refused (x >>= f) (y >>= g)
  | tryCatch {γ} {x y : Exec σ γ} {h k : Stop → Exec σ γ} (tried : Refused x y)
      (caught : ∀ e, Refused (h e) (k e)) : Refused (tryCatch x h) (tryCatch y k)
  | register (t : TrapType) (p : Proposal) : Refused (System.register t p) (refusal .locked)
  | unregister (t : TrapType) (description : Text) (registrar : Registrar) :
      Refused (System.unregister t description registrar) (refusal .locked)
  | unregisterBound (context : ContextId) (registrar : Registrar) :
      Refused (System.unregisterBound context registrar) (refusal ⟨.locked, 0, 0⟩)
  | purge (context : ContextId) : Refused (System.purge context) (refusal ⟨.locked, 0, 0⟩)
  | count (t : TrapType) : Refused (System.handlerCount t) (refusal 0)
  | print (client : Client σ) : Refused (@System.printHandlers σ client) (refusal ())
  | trap (client calm : Client σ)
      (observers : ∀ text, Refused (client.written text) (calm.written text)) (f : Frame) :
      Refused (ExceptT.lift (@takeTrapOf σ client f))
        (ExceptT.lift (StateT.run (@takeUnattended σ calm).run f))

/-- Every tree of calls comes to its refusals. -/
theorem Refused.comesTo {x y : Exec σ α} (h : Refused x y) : Exec.ComesTo x y := by
  induction h with
  | other h => exact .of_leads h
  | bind _ _ hx hf => exact hx.bind hf
  | tryCatch _ _ hx hh => exact hx.tryCatch hh
  | register t p => exact .locked_bind rfl
  | unregister t description registrar => exact .locked_bind rfl
  | unregisterBound context registrar => exact .locked_bind rfl
  | purge context => exact .locked_bind rfl
  | count t => exact .locked _ _
  | print client => exact .locked _ _
  | trap client calm _ f ih =>
    intro m hm
    obtain ⟨hsame, hundisturbed⟩ := takeTrap_comesTo ih f m hm
    have hrun (x : TrapExec σ Unit) : Exec.runOn (ExceptT.lift (StateT.run x.run f)) m =
        (.ok (TrapExec.runOn x f m).1, (TrapExec.runOn x f m).2) := rfl
    refine ⟨?_, hundisturbed⟩
    rw [hrun, ← hsame]
    rfl

/-! ### The listing -/

/-- Under the lock of the registry, whoever finds it free holds it until the end of the call. -/
theorem System.runOn_locked_of_free {m : Machine σ} (h : m.system.lock.flag = false)
    (body refused : Exec σ α) :
    let ended := Exec.runOn body (Machine.theLock.set ⟨true, m.hart⟩ m.asked)
    Exec.runOn (System.locked body refused) m =
      (ended.1, Machine.theLock.set ⟨false, noOwner⟩ ended.2) := by
  intro ended
  rw [locked, runOn_withLock_of_free lock_apart_platform body refused h, Exec.runOn_finally]
  simp only [Spinlock.release_eq, ended]

/-- Whoever was given the lock holds it. -/
theorem Machine.holdsRegistry_of_granted (m : Machine σ) :
    (theLock.set ⟨true, m.hart⟩ m.asked).HoldsRegistry := by
  have hhart : (theLock.set ⟨true, m.hart⟩ m.asked).hart = m.hart :=
    (hart_congr rfl rfl).trans m.hart_asked
  show (true && m.hart == _) = true
  rw [hhart]
  exact BEq.rfl

/-- What is printed of the registry, without its lock. -/
def System.listHandlers [Client σ] : Exec σ Unit := do
  Registry.print Machine.theRegistry (← console)

theorem System.runOn_printHandlers_of_free [Client σ] {m : Machine σ}
    (h : m.system.lock.flag = false) :
    let ended := Exec.runOn listHandlers (Machine.theLock.set ⟨true, m.hart⟩ m.asked)
    Exec.runOn printHandlers m =
      (ended.1, Machine.theLock.set ⟨false, noOwner⟩ ended.2) := runOn_locked_of_free h _ _

section

variable {client calm : Client σ}
  (observers : ∀ text, Exec.ComesTo (client.written text) (calm.written text))

include observers

theorem Registry.printEntries_comesTo (t : TrapType) (sink : Sink) (fuel i : Nat) :
    Exec.ComesTo (@Registry.printEntries σ client Machine.theRegistry t sink fuel i)
      (@Registry.printEntries σ calm Machine.theRegistry t sink fuel i) := by
  induction fuel generalizing i with
  | zero => exact .pure ()
  | succ fuel ih =>
    refine .bind (.of_leads (.read _)) fun r => ?_
    cases (r.entries t)[i]? with
    | none => exact .pure ()
    | some e => exact .bind (putLine_comesTo observers _ _) fun _ => ih (i + 1)

theorem Registry.print_comesTo (sink : Sink) :
    Exec.ComesTo (@Registry.print σ client Machine.theRegistry sink)
      (@Registry.print σ calm Machine.theRegistry sink) := by
  cases sink with
  | nowhere => exact .pure ()
  | console =>
    refine .bind (puts_comesTo observers .console _) fun _ => .forM fun t => ?_
    refine .bind (.of_leads (.read _)) fun r => .ite ?_ (.pure ())
    exact .bind (putLine_comesTo observers _ _) fun _ => printEntries_comesTo observers t _ _ _

theorem System.listHandlers_comesTo :
    Exec.ComesTo (@System.listHandlers σ client) (@System.listHandlers σ calm) :=
  .bind (.of_leads (.bind .get fun _ => .pure _)) fun sink => Registry.print_comesTo observers sink

end

/-- **On a hart that holds the lock of the registry every call is turned away, and nothing comes of
it.**  A request to register or to remove handlers is answered with `locked`, and nothing was
removed or denied.  There is no handler to count, and nothing is printed.  A trap is offered to
nobody and goes to the last resort of its type, whatever the handlers are.  A whole tree of such
calls, in any order and to any depth, does what the tree of these refusals does.  All the while the
registry and its lock stay as they are, and no change is recorded.

The registry is printed under its lock.  Let those who observe the console make any tree of calls.
Then the lock is held until the listing has ended, and is free afterwards. -/
theorem held_registry_turns_calls_away (m : Machine σ) :
    (m.HoldsRegistry →
      (∀ t p, Exec.runOn (System.register t p) m = (.ok .locked, m.asked)) ∧
      (∀ t description registrar,
        Exec.runOn (System.unregister t description registrar) m = (.ok .locked, m.asked)) ∧
      (∀ context registrar,
        Exec.runOn (System.unregisterBound context registrar) m =
          (.ok ⟨.locked, 0, 0⟩, m.asked)) ∧
      (∀ context, Exec.runOn (System.purge context) m = (.ok ⟨.locked, 0, 0⟩, m.asked)) ∧
      (∀ t, Exec.runOn (System.handlerCount t) m = (.ok 0, m.asked)) ∧
      (∀ client, Exec.runOn (@System.printHandlers σ client) m = (.ok (), m.asked)) ∧
      Undisturbed m m.asked ∧ m.asked.platform.writes = m.platform.writes ∧
      (∀ client calm : Client σ, (∀ text, Refused (client.written text) (calm.written text)) →
        ∀ f, TrapExec.runOn (@takeTrap σ client) f m = TrapExec.runOn (@takeUnattended σ calm) f m ∧
          Undisturbed m (TrapExec.runOn (@takeTrap σ client) f m).2) ∧
      ∀ (α : Type) (x y : Exec σ α), Refused x y →
        Exec.runOn x m = Exec.runOn y m ∧ Undisturbed m (Exec.runOn x m).2) ∧
    (m.system.lock.flag = false →
      ∀ client calm : Client σ, (∀ text, Refused (client.written text) (calm.written text)) →
        let held := Machine.theLock.set ⟨true, m.hart⟩ m.asked
        let ended := Exec.runOn (@System.listHandlers σ calm) held
        held.HoldsRegistry ∧ Undisturbed held ended.2 ∧
        Exec.runOn (@System.printHandlers σ client) m =
          (ended.1, Machine.theLock.set ⟨false, noOwner⟩ ended.2)) := by
  refine ⟨fun holds => ?_, fun free client calm observers => ?_⟩
  · have hrefused {α : Type} {x : Exec σ α} {a : α} (h : Refused x (refusal a)) :
        Exec.runOn x m = (.ok a, m.asked) := by
      rw [(h.comesTo m holds).1, runOn_refusal]
    have hwrites : m.asked.platform.writes = m.platform.writes := by
      obtain ⟨hart, next, h⟩ := m.asked_eq
      rw [h]
    refine ⟨fun t p => hrefused (.register t p), fun t d r => hrefused (.unregister t d r),
      fun c r => hrefused (.unregisterBound c r), fun c => hrefused (.purge c),
      fun t => hrefused (.count t), fun client => hrefused (.print client), .asked m, hwrites,
      fun client calm observers f => ?_, fun α x y h => h.comesTo m holds⟩
    exact takeTrap_comesTo (fun text => (observers text).comesTo) f m holds
  · have hrun := @System.runOn_printHandlers_of_free σ client m free
    have hheld := m.holdsRegistry_of_granted
    obtain ⟨hsame, hundisturbed⟩ :=
      System.listHandlers_comesTo (fun text => (observers text).comesTo) _ hheld
    rw [hsame] at hrun hundisturbed
    exact ⟨hheld, hundisturbed, hrun⟩

/-- What a client is told when it calls the trap system. -/
structure Meddler where
  added : Option RegistryStatus := none
  purged : Option System.Removal := none
  /-- Where the frame of a breakpoint goes on, once its trap has returned. -/
  trapped : Option UInt64 := none

namespace Meddler

/-- The client while a trap is taken. -/
@[reducible] def bystander : Client Meddler where
  trapHandler _ := return .handled
  errorHandler _ _ := return .unhandled
  command _ _ _ := return 0
  written _ := return

def proposal : Proposal := ⟨some (.client 0), some "late", {}⟩

/-- The frame of a breakpoint. -/
def frame : Frame where
  scause := 3
  sepc := 16

/-- What the client keeps of the answers. -/
def keep (added : RegistryStatus) (purged : System.Removal)
    (trapped : Except Stop Unit × Frame) : Exec Meddler Unit :=
  let resumed := match trapped with
    | (.ok (), f) => some f.sepc
    | (.error _, _) => none
  modify fun m => { m with clients := ⟨added, purged, resumed⟩ }

/-- What the client does when the listing of the handlers begins. -/
def calls : Exec Meddler Unit := do
  let added ← System.register .breakpoint proposal
  let purged ← System.purge 7
  let trapped ← ExceptT.lift (@takeTrapOf Meddler bystander frame)
  keep added purged trapped

/-- What comes of it. -/
def refusals : Exec Meddler Unit := do
  let added ← refusal .locked
  let purged ← refusal ⟨.locked, 0, 0⟩
  let trapped ← ExceptT.lift (StateT.run (@takeUnattended Meddler bystander).run frame)
  keep added purged trapped

/-- A client that does something when the listing of the handlers begins. -/
@[reducible] def doing (x : Exec Meddler Unit) : Client Meddler where
  trapHandler _ := return .handled
  errorHandler _ _ := return .unhandled
  command _ _ _ := return 0
  written text := if text = Text.ofString "=== Registered trap handlers ===\n" then x else return

theorem refused_calls : Refused calls refusals := by
  refine .bind (.register _ _) fun added => .bind (.purge _) fun purged => ?_
  refine .bind (.trap bystander bystander (fun _ => .other (.pure ())) frame) fun trapped => ?_
  exact .other fun _ => .of_eq rfl rfl rfl rfl

/-- A machine that is ready, with one handler of breakpoints that is bound to a context. -/
def machine : Machine Meddler where
  system.bound := true
  system.ready := true
  system.registry :=
    (Registry.add {} .breakpoint ⟨some (.client 0), some "early", { context := some 7 }⟩).2
  clients := {}

end Meddler

/-- A client that registers a handler, takes one away and takes a trap while the handlers are listed
is turned away each time.  The trap goes to the last resort, which goes on behind the breakpoint. -/
theorem meddler_is_turned_away :
    let after :=
      (Exec.runOn (@System.printHandlers Meddler (Meddler.doing Meddler.calls)) Meddler.machine).2
    after.clients.added = some .locked ∧
    after.clients.purged = some ⟨.locked, 0, 0⟩ ∧
    after.clients.trapped = some 20 ∧
    after.system.registry = Meddler.machine.system.registry ∧
    after.system.lock.flag = false ∧
    let held := Machine.theLock.set ⟨true, 0⟩ Meddler.machine
    held.HoldsRegistry ∧
      Exec.runOn Meddler.calls held = Exec.runOn Meddler.refusals held := by
  have observers (text : Text) : Refused ((Meddler.doing Meddler.calls).written text)
      ((Meddler.doing Meddler.refusals).written text) := by
    show Refused (if _ then _ else _) (if _ then _ else _)
    split
    · exact Meddler.refused_calls
    · exact .other (.pure ())
  obtain ⟨-, hfree⟩ := held_registry_turns_calls_away Meddler.machine
  obtain ⟨-, hundisturbed, hrun⟩ := hfree rfl _ _ observers
  intro after
  have hend : after = _ := congrArg Prod.snd hrun
  have hlisted : after.clients.added = some .locked ∧ after.clients.purged = some ⟨.locked, 0, 0⟩ ∧
      after.clients.trapped = some 20 := by
    rw [hend]
    decide +kernel
  refine ⟨hlisted.1, hlisted.2.1, hlisted.2.2, ?_, ?_, ?_⟩
  · rw [hend]
    exact hundisturbed.registry
  · rw [hend]
    rfl
  · intro held
    obtain ⟨hholds, -⟩ := held_registry_turns_calls_away held
    obtain ⟨-, -, -, -, -, -, -, -, -, htree⟩ := hholds rfl
    exact ⟨rfl, (htree Unit _ _ Meddler.refused_calls).1⟩

end Supervisor
