/-
Changes of the registry by the calls of its interface.

Every call asks for the lock of the registry first.  It makes one change at most, and none while
the lock is taken (`System.runOn_locked_change`).  From there on a call only traces and prints, so
what it does to the registry is one change of its history (`MakesAtMost`), and the rest is up to
those who observe the console (`Observed`).

* `OwnedCall` — the calls that are made in the name of a registrar;
* `OwnedCall.spares_the_kernel` — what they do to the entries under system protection;
* `kernel_entry_goes_by_its_name` — the one call that does not turn the kernel's own number away.

Design notes: two of the calls turn the registrar of the kernel away.  The third is also the way by
which the kernel removes its own entries, and has no such guard: whoever names the kernel there is
taken for it.
-/
import Supervisor.Api
import Supervisor.Proofs.Action
import Supervisor.Proofs.Registry.Ownership

namespace Supervisor

open Registry

variable {σ α β : Type}

/-! ### Under the lock of the registry -/

/-- A change under the lock of the registry is made if nobody holds the lock.  Otherwise nothing
happens, and the hart is turned away or waits. -/
theorem System.runOn_locked_change (f : Registry → β × Registry) (refusal : β) (m : Machine σ) :
    ∃ p, (m.system.lock.flag = false ∧
        Exec.runOn (locked (Machine.theRegistry.change f) (return refusal)) m =
          (.ok (f m.system.registry).1, Machine.theSystem.set
            { m.system with registry := (f m.system.registry).2, lock := ⟨false, noOwner⟩ }
            (Machine.thePlatform.set p m))) ∨
      (m.system.lock.flag = true ∧ ∃ r, (r = .ok refusal ∨ r = .error .waits) ∧
        Exec.runOn (locked (Machine.theRegistry.change f) (return refusal)) m =
          (r, Machine.thePlatform.set p m)) := by
  cases hflag : m.system.lock.flag with
  | false =>
    obtain ⟨core, p, -, hrun⟩ := runOn_locked asksHart_currentHart lock_apart_platform
      (Machine.theRegistry.change f) (return refusal) hflag
    exact ⟨p, .inl ⟨rfl, hrun⟩⟩
  | true =>
    obtain ⟨_, r, p, -, hr, hrun⟩ := runOn_locked_of_taken asksHart_currentHart lock_apart_platform
      (Machine.theRegistry.change f) refusal hflag
    exact ⟨p, .inr ⟨rfl, r, hr.imp_left And.right, hrun⟩⟩

/-! ### Actions that make one change -/

section

variable [Client σ]

/-- From one machine to the other the registry changes only by what the observers of the console
do. -/
def Observed (m m' : Machine σ) : Prop :=
  ∀ (R : Machine σ → Machine σ → Prop) [IsPreorder (Machine σ) R],
    (∀ m m', m'.system.registry = m.system.registry → R m m') →
    (∀ text, Exec.Leads (Client.written (σ := σ) text) R) → R m m'

instance : IsPreorder (Machine σ) Observed where
  refl m R _ _ _ := refl_of R m
  trans _ _ _ h h' R _ same written := trans_of R (h R same written) (h' R same written)

namespace Observed

theorem of_registry {m m' : Machine σ} (h : m'.system.registry = m.system.registry) :
    Observed m m' := fun _ _ same _ => same _ _ h

theorem of_keeps {x : Exec σ α} (hx : Exec.Keeps x (·.system.registry)) :
    Exec.Leads x Observed := .of_keeps hx fun _ _ => of_registry

theorem written (text : Text) : Exec.Leads (Client.written (σ := σ) text) Observed :=
  fun m _ _ _ leads => leads text m

/-- Observers that leave the registry as it is change nothing. -/
theorem registry_eq {m m' : Machine σ} (h : Observed m m')
    (quiet : ∀ text, Exec.Keeps (Client.written (σ := σ) text) (·.system.registry)) :
    m'.system.registry = m.system.registry :=
  have : IsPreorder (Machine σ) fun m m' => m'.system.registry = m.system.registry :=
    { refl := fun _ => rfl, trans := fun _ _ _ h h' => h'.trans h }
  h _ (fun _ _ => id) quiet

end Observed

/-- An action that makes one change of the registry, or none, before the observers of the console
come into play. -/
def Exec.MakesAtMost (x : Exec σ α) (c : Change) : Prop :=
  ∀ m, ∃ m₁, (m₁.system.registry = m.system.registry ∨
    m₁.system.registry = m.system.registry.after c) ∧ Observed m₁ (Exec.runOn x m).2

namespace Exec.MakesAtMost

variable {c : Change}

theorem of_keeps {x : Exec σ α} (h : Exec.Keeps x (·.system.registry)) : MakesAtMost x c :=
  fun m => ⟨_, .inl (h m), refl_of Observed _⟩

theorem locked_change {f : Registry → β × Registry} (hf : ∀ r, (f r).2 = r.after c)
    (refusal : β) :
    MakesAtMost (System.locked (Machine.theRegistry.change f) (return refusal) : Exec σ β) c := by
  intro m
  obtain ⟨p, ⟨-, hrun⟩ | ⟨-, r, -, hrun⟩⟩ := System.runOn_locked_change f refusal m
  · rw [hrun]
    exact ⟨_, .inr (hf _), refl_of Observed _⟩
  · rw [hrun]
    exact ⟨m, .inl rfl, .of_registry rfl⟩

/-- What follows the change is left to the observers. -/
theorem bind {x : Exec σ α} {f : α → Exec σ β} (hx : MakesAtMost x c)
    (hf : ∀ a, Exec.Leads (f a) Observed) : MakesAtMost (x >>= f) c := by
  intro m
  obtain ⟨m₁, hchange, hobserved⟩ := hx m
  refine ⟨m₁, hchange, ?_⟩
  rw [Exec.runOn_bind]
  split
  · rename_i a m' heq
    rw [heq] at hobserved
    exact trans_of Observed hobserved (hf a m')
  · rename_i e m' heq
    rwa [heq] at hobserved

/-- What comes before the change leaves the registry as it is. -/
theorem after_keeps {x : Exec σ α} {f : α → Exec σ β} (hx : Exec.Keeps x (·.system.registry))
    (hf : ∀ a, MakesAtMost (f a) c) : MakesAtMost (x >>= f) c := by
  intro m
  have hm : (Exec.runOn x m).2.system.registry = m.system.registry := hx m
  rw [Exec.runOn_bind]
  split
  · rename_i a m' heq
    rw [heq] at hm
    rw [← hm]
    exact hf a m'
  · rename_i e m' heq
    rw [heq] at hm
    exact ⟨m', .inl hm, refl_of Observed m'⟩

theorem ite {d : Prop} [Decidable d] {x y : Exec σ α} (hx : MakesAtMost x c)
    (hy : MakesAtMost y c) : MakesAtMost (if d then x else y) c := by
  split
  · exact hx
  · exact hy

end Exec.MakesAtMost

end

namespace System

theorem note_keeps_registry (kind : EventKind) (name : Text) (value : UInt64) :
    Exec.Keeps (note (σ := σ) kind name value) (·.system.registry) :=
  note_keeps (fun _ => rfl) (fun _ _ => rfl) kind name value

variable [Client σ]

theorem note_observed (kind : EventKind) (name : Text) (value : UInt64) :
    Exec.Leads (note (σ := σ) kind name value) Observed :=
  Observed.of_keeps (note_keeps_registry kind name value)

theorem register_makes (t : TrapType) (p : Proposal) :
    Exec.MakesAtMost (register (σ := σ) t p) (.add t p) :=
  .bind (.locked_change (fun _ => rfl) _) fun _ =>
    .ite (.bind (note_observed _ _ _) fun _ => .pure _) (.pure _)

theorem unregister_makes (t : TrapType) (text : Text) (g : Registrar) :
    Exec.MakesAtMost (unregister (σ := σ) t text g) (.remove t text g) :=
  .bind (.locked_change (fun _ => rfl) _) fun _ =>
    .ite (.bind (note_observed _ _ _) fun _ => .pure _) (.pure _)

theorem unregisterBound_makes (context : ContextId) (g : Registrar) :
    Exec.MakesAtMost (unregisterBound (σ := σ) context g) (.removeBound context g) :=
  .bind (.locked_change (fun _ => rfl) _) fun _ =>
    .ite (.bind (note_observed _ _ _) fun _ => .pure _) (.pure _)

end System

/-! ### Calls in the name of a registrar -/

namespace Api

theorem whenReady_of_ready {m : Machine σ} (h : m.system.ready = true) (otherwise : α)
    (body : Exec σ α) : Exec.runOn (whenReady otherwise body) m = Exec.runOn body m := by
  have hready : Exec.runOn isReady m = (.ok true, m) := by
    rw [isReady, Exec.runOn_bind_of_ok (Exec.runOn_get m), h]
    rfl
  exact Exec.runOn_bind_of_ok hready

theorem whenReady_of_not_ready {m : Machine σ} (h : m.system.ready = false) (otherwise : α)
    (body : Exec σ α) : Exec.runOn (whenReady otherwise body) m = (.ok otherwise, m) := by
  have hready : Exec.runOn isReady m = (.ok false, m) := by
    rw [isReady, Exec.runOn_bind_of_ok (Exec.runOn_get m), h]
    rfl
  exact Exec.runOn_bind_of_ok hready

end Api

/-- A call of the interface that is made in the name of a registrar. -/
inductive OwnedCall where
  | register (t : TrapType) (handler : Option TrapHandler) (priority : UInt8)
    (description : Option Text) (context : Option ContextId)
  | unregister (t : TrapType) (description : Text)
  | unregisterBound (context : ContextId)
deriving Repr, DecidableEq

namespace OwnedCall

/-- Makes the call in the name of the registrar `g`. -/
def perform [Client σ] (g : Registrar) : OwnedCall → Exec σ ApiStatus
  | register t handler priority description context =>
    Api.registerOwned t handler priority description context g
  | unregister t description => Api.unregisterOwned t description g
  | unregisterBound context => do return (← Api.unregisterBound context g).1

/-- The change of the registry that the call asks for. -/
def change (g : Registrar) : OwnedCall → Change
  | register t handler priority description context =>
    .add t ⟨handler, description, ⟨priority, .user, g, context⟩⟩
  | unregister t description => .remove t description g
  | unregisterBound context => .removeBound context g

/-- Whether the call turns the registrar of the kernel away. -/
def guardsKernel : OwnedCall → Bool
  | unregister _ _ => false
  | _ => true

theorem carries_change (g : Registrar) (c : OwnedCall) : (c.change g).Carries g := by
  cases c <;> rfl

variable [Client σ]

theorem perform_makes (g : Registrar) (c : OwnedCall) :
    Exec.MakesAtMost (c.perform (σ := σ) g) (c.change g) := by
  have hready : Exec.Keeps (Api.isReady (σ := σ)) (·.system.registry) := .bind .get fun _ => .pure _
  have hkept {β : Type} (b : β) {d : Change} : Exec.MakesAtMost (return b : Exec σ β) d :=
    .of_keeps (.pure b)
  cases c with
  | register t handler priority description context =>
    refine .after_keeps hready fun _ => .ite (.ite (hkept _) (.ite (hkept _) ?_)) (hkept _)
    refine .bind (System.register_makes t _) fun status => .ite ?_ (.pure _)
    exact .bind (Observed.of_keeps System.console_keeps) fun sink =>
      .bind (putLine_leads (fun _ _ => .of_registry rfl) Observed.written sink _) fun _ => .pure _
  | unregister t description =>
    refine .after_keeps hready fun _ => .ite ?_ (hkept _)
    exact .bind (System.unregister_makes t description g) fun _ => .pure _
  | unregisterBound context =>
    refine .bind (.after_keeps hready fun _ => .ite (.ite (hkept _) ?_) (hkept _)) fun _ => .pure _
    exact .bind (System.unregisterBound_makes context g) fun _ => .ite (.pure _) (.pure _)

/-- A call that turns the registrar of the kernel away does nothing in its name. -/
theorem perform_kernel {c : OwnedCall} (hc : c.guardsKernel = true) (m : Machine σ) :
    Exec.runOn (c.perform kernelRegistrar) m =
      (.ok (if m.system.ready then .invalidRegistrar else .notReady), m) := by
  cases hready : m.system.ready with
  | true =>
    cases c with
    | register t handler priority description context => exact Api.whenReady_of_ready hready _ _
    | unregister t description => cases hc
    | unregisterBound context =>
      have hcall : Exec.runOn (Api.unregisterBound context kernelRegistrar) m =
          (.ok (.invalidRegistrar, 0), m) := Api.whenReady_of_ready hready _ _
      exact Exec.runOn_bind_of_ok hcall
  | false =>
    cases c with
    | register t handler priority description context =>
      exact Api.whenReady_of_not_ready hready _ _
    | unregister t description => exact Api.whenReady_of_not_ready hready _ _
    | unregisterBound context =>
      have hcall : Exec.runOn (Api.unregisterBound context kernelRegistrar) m =
          (.ok (.notReady, 0), m) := Api.whenReady_of_not_ready hready _ _
      exact Exec.runOn_bind_of_ok hcall

/-- What a call adds stands under user protection, in the name of its registrar. -/
theorem mem_of_mem_enter {g : Registrar} {c : OwnedCall} {t : TrapType} {l : List Proposal}
    {p : Proposal} (hp : p ∈ (c.change g).enter t l) (hnew : p ∉ l) :
    c.guardsKernel = true ∧ p.terms.protection = .user ∧ p.terms.registrar = g := by
  rcases List.mem_append.1 hp with hkept | hadded
  · exact absurd (List.mem_filter.1 hkept).1 hnew
  · have heq := (mem_adds_iff.1 hadded).1
    cases c with
    | register =>
      cases heq
      exact ⟨rfl, rfl, rfl⟩
    | unregister => cases heq
    | unregisterBound => cases heq

/-- A call in the name of another registrar leaves the entries under system protection as they
are. -/
theorem filter_system_enter {g : Registrar} (hg : g ≠ kernelRegistrar) (c : OwnedCall)
    (t : TrapType) (l : List Proposal) :
    ((c.change g).enter t l).filter (·.terms.protection == .system) =
      l.filter (·.terms.protection == .system) := by
  have hcarries : ∀ d ∈ [c.change g], d.Carries g :=
    fun d hd => List.mem_singleton.1 hd ▸ c.carries_change g
  obtain ⟨added, heq, hadded⟩ := filter_guarded_foldl (l := l) (t := t) hg hcarries
    (fun p => p.terms.protection == .system) fun p hp => by rw [Registry.guarded, hp, Bool.true_or]
  have hnil : added = [] := by
    refine List.eq_nil_iff_forall_not_mem.2 fun p hp => ?_
    obtain ⟨hsystem, s, hs⟩ := hadded p hp
    have hadd := List.mem_singleton.1 hs
    cases c with
    | register =>
      cases hadd
      cases hsystem
    | unregister => cases hadd
    | unregisterBound => cases hadd
  rw [hnil, List.append_nil] at heq
  exact heq

/-- **Calls in the name of a registrar spare the kernel.**  On a registry as any history leaves it,
whatever else the machine is like, a call makes its change of the registry before the observers of
the console come into play; let `m₁` be the machine then.  A new entry stands under user protection
and under a registrar other than the kernel's.  The call leaves the entries under system protection
as they are and in their order, unless it removes by description and names the kernel; and then it
is the removal by which the kernel removes its own.  Every other call that names the kernel is
turned away, and nothing happens. -/
theorem spares_the_kernel {m : Machine σ} {history : List Change}
    (reachable : m.system.registry = Registry.run {} history) (g : Registrar) (c : OwnedCall) :
    let ended := Exec.runOn (c.perform g) m
    (c.guardsKernel = true → g = kernelRegistrar →
      ended = (.ok (if m.system.ready then .invalidRegistrar else .notReady), m)) ∧
    (∀ t text, c = .unregister t text → g = kernelRegistrar →
      ended = Exec.runOn (Api.unregister t text) m) ∧
    ∃ m₁, Observed m₁ ended.2 ∧
      let new (t : TrapType) := (m₁.system.registry.bucket t).toList
      let old (t : TrapType) := (m.system.registry.bucket t).toList
      (∀ t, ∀ p ∈ new t, p ∉ old t →
        p.terms.protection = .user ∧ p.terms.registrar = g ∧ g ≠ kernelRegistrar) ∧
      (c.guardsKernel = true ∨ g ≠ kernelRegistrar → ∀ t,
        (new t).filter (·.terms.protection == .system) =
          (old t).filter (·.terms.protection == .system)) := by
  intro ended
  have hold : m.system.registry.Holds (ledger history) := reachable ▸ holds_run history
  have hturned : c.guardsKernel = true → g = kernelRegistrar →
      ended = (.ok (if m.system.ready then .invalidRegistrar else .notReady), m) := by
    rintro hc rfl
    exact perform_kernel hc m
  refine ⟨hturned, ?_, ?_⟩
  · rintro t text rfl rfl
    rfl
  -- a call that is turned away reaches no change, so `m₁` is the machine that it came upon
  by_cases hkernel : c.guardsKernel = true ∧ g = kernelRegistrar
  · have hm : ended.2 = m := congrArg Prod.snd (hturned hkernel.1 hkernel.2)
    exact ⟨m, hm ▸ refl_of Observed m, fun t p hp hnew => absurd hp hnew, fun _ t => rfl⟩
  · obtain ⟨m₁, hmade, hobserved⟩ := perform_makes g c m
    refine ⟨m₁, hobserved, ?_⟩
    intro new old
    rcases hmade with hnone | hafter
    · have hsame (t : TrapType) : new t = old t := by simp only [new, old, hnone]
      exact ⟨fun t p hp hnew => absurd (hsame t ▸ hp) hnew, fun _ t => by rw [hsame t]⟩
    · have hnow (t : TrapType) :
          (m₁.system.registry.bucket t).Holds ((c.change g).enter t (ledger history t)) :=
        hafter ▸ hold.after (c.change g) t
      refine ⟨fun t p hp hnew => ?_, fun hspared t => ?_⟩
      · obtain ⟨hguards, hprotection, hregistrar⟩ :=
          mem_of_mem_enter ((hnow t).mem_toList.1 hp) fun hl => hnew ((hold t).mem_toList.2 hl)
        exact ⟨hprotection, hregistrar, fun hg => hkernel ⟨hguards, hg⟩⟩
      · have hg : g ≠ kernelRegistrar := hspared.elim (fun hc hg => hkernel ⟨hc, hg⟩) id
        have hthen : new t = byPriority ((c.change g).enter t (ledger history t)) :=
          (hnow t).toList_eq
        have hbefore : old t = byPriority (ledger history t) := (hold t).toList_eq
        rw [hthen, hbefore, filter_byPriority, filter_byPriority, filter_system_enter hg c t]

end OwnedCall

/-- A client that only lets its handlers be registered. -/
inductive Tenant where
  | here

instance : Client Tenant where
  trapHandler _ := return .pass
  errorHandler _ _ := return .unhandled
  command _ _ _ := return 0
  written _ := return

/-- A machine whose system was started. -/
def Tenant.machine : Machine Tenant := (Exec.runOn (Api.start .direct) { clients := .here }).2

/-- The entry of the kernel for timer interrupts. -/
def Tenant.kernelTimer : Proposal := ⟨some (.basic .timer), some "Default Timer Handler", {}⟩

/-- What the kernel registered is out of reach for a registrar of its own, and the bulk removal is
closed to whoever names the kernel. -/
theorem tenant_spares_the_kernel :
    (∀ t, ((Exec.runOn ((OwnedCall.unregister .timerInterrupt "Default Timer Handler").perform 1)
        Tenant.machine).2.system.registry.bucket t).toList.filter
          (·.terms.protection == .system) =
      (Tenant.machine.system.registry.bucket t).toList.filter
        (·.terms.protection == .system)) ∧
    Exec.runOn ((OwnedCall.unregisterBound 0).perform kernelRegistrar) Tenant.machine =
      (.ok .invalidRegistrar, Tenant.machine) := by
  have reachable : Tenant.machine.system.registry = Registry.run {}
      (System.basicHandlers.map fun d => .add d.1 ⟨some (.basic d.2.1), some d.2.2, {}⟩) := by
    decide +kernel
  have ready : Tenant.machine.system.ready = true := by decide +kernel
  obtain ⟨-, -, m₁, hobserved, -, hspared⟩ := OwnedCall.spares_the_kernel reachable 1
    (.unregister .timerInterrupt "Default Timer Handler")
  obtain ⟨hturned, -⟩ := OwnedCall.spares_the_kernel reachable kernelRegistrar (.unregisterBound 0)
  refine ⟨fun t => ?_, ?_⟩
  · rw [hobserved.registry_eq fun _ => .pure ()]
    exact hspared (.inr (by decide)) t
  · rw [hturned rfl rfl, ready]
    rfl

/-- Whoever names the kernel in a removal by description is taken for it: an entry under system
protection goes away. -/
theorem kernel_entry_goes_by_its_name :
    let call := OwnedCall.unregister .timerInterrupt "Default Timer Handler"
    let ended := Exec.runOn (call.perform kernelRegistrar) Tenant.machine
    Tenant.machine.system.ready = true ∧
    (Tenant.machine.system.registry.bucket .timerInterrupt).toList = [Tenant.kernelTimer] ∧
    Tenant.kernelTimer.terms.protection = .system ∧
    ended.1 = .ok .ok ∧
    (ended.2.system.registry.bucket .timerInterrupt).toList = [] := by
  decide +kernel

end Supervisor
