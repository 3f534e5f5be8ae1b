/-
The installation of the diagnostic handlers.

Each diagnostic handler is asked for on its own, and each request may be refused on its own: for
want of room, because another entry goes by the description, or at the lock.  What is refused once
is refused again after any further requests, and nothing is granted twice.  So a second installation
finds every request refused, whatever the registry was like before the first.

* `SlotTable.add_cases` — a table after a request;
* `SlotTable.Refuses.add`, `SlotTable.refuses_add_self` — refusals last through further requests;
* `Registry.install`, `Registry.install_twice` — an installation on the registry alone;
* `Registry.bucket_install` — one trap type after an installation;
* `Machine.reception`, `Machine.Unhindered` — what a request to the registry depends on, and when it
  does not wait;
* `diagnostics_install_once` — an installation and the one after it on any machine.

Design notes: nothing is asked of the registry here, so its history plays no part.
-/
import Supervisor.Proofs.Registry.Access

namespace Supervisor

open Tabled

variable {σ α : Type} {n : Nat}

/-! ### Requests that a table refuses -/

namespace SlotTable

variable [Tabled α] {t : SlotTable α n} {a b : α}

/-- Whether a table refuses a request. -/
def Refuses (t : SlotTable α n) (a : α) : Prop := (t.add a).1 ≠ .ok

/-- A request is granted exactly if it is complete, there is room, and no entry goes by its
description. -/
theorem not_refuses_iff : ¬t.Refuses a ↔
    complete a = true ∧ t.count < n ∧
      ∀ b ∈ t.toList, isCalled b ((description a).getD []) = false := by
  rw [Refuses, add, not_not]
  cases hcomplete : complete a with
  | false => simp
  | true =>
    by_cases hroom : n ≤ t.count
    · simp [hroom, Nat.not_lt.2 hroom]
    · cases hcalled : t.toList.any (isCalled · ((description a).getD [])) with
      | true => simpa [hroom] using fun _ => List.any_eq_true.1 hcalled
      | false => simpa [hroom, Nat.not_le.1 hroom] using hcalled

/-- A refusal changes nothing, and a request that is granted puts its entry among the others. -/
theorem add_cases (t : SlotTable α n) (a : α) :
    (t.Refuses a ∧ (t.add a).2 = t) ∨
    (¬t.Refuses a ∧ (t.add a).2.count = t.count + 1 ∧
      ∃ before behind, t.toList = before ++ behind ∧
        (t.add a).2.toList = before ++ a :: behind) := by
  by_cases h : t.Refuses a
  · refine .inl ⟨h, ?_⟩
    revert h
    rw [Refuses, add]
    repeat' split
    all_goals simp
  · obtain ⟨hcomplete, hroom, hnew⟩ := not_refuses_iff.1 h
    have hadd : t.add a = (.ok, t.insertAt (t.place a) a) := by
      have hany : ¬t.toList.any (isCalled · ((description a).getD [])) = true := by
        simpa using hnew
      rw [add, hcomplete, if_neg (by simp), if_neg (Nat.not_le.2 hroom), if_neg hany]
    -- the entry goes to a place among those in use or right behind them
    have hplace : t.place a ≤ t.toList.length := List.findIdx_le_length
    have hcount : t.place a ≤ t.count := length_toList (Nat.le_of_lt hroom) ▸ hplace
    obtain ⟨before, behind, hold, -, hnew⟩ := List.exists_of_modifyTailIdx (List.cons a) hplace
    refine .inr ⟨h, by rw [hadd]; rfl, before, behind, hold, ?_⟩
    rw [hadd, toList_insertAt hcount hroom]
    exact hnew

/-- Further requests leave a table less room and more descriptions, so what it refuses it refuses
after them too. -/
theorem Refuses.add (h : t.Refuses a) (b : α) : (t.add b).2.Refuses a := by
  rcases t.add_cases b with ⟨-, heq⟩ | ⟨-, hcount, before, behind, hold, hnew⟩
  · rwa [heq]
  · by_contra hgranted
    obtain ⟨hcomplete, hroom, hfree⟩ := not_refuses_iff.1 hgranted
    refine not_refuses_iff.2 ⟨hcomplete, by omega, fun c hc => hfree c ?_⟩ h
    rw [hold] at hc
    rw [hnew]
    exact ((List.sublist_cons_self b behind).append_left before).subset hc

/-- What was asked for once is refused from then on. -/
theorem refuses_add_self (t : SlotTable α n) (a : α) : (t.add a).2.Refuses a := by
  rcases t.add_cases a with ⟨h, heq⟩ | ⟨-, -, before, behind, -, hnew⟩
  · rwa [heq]
  · by_contra hgranted
    obtain ⟨-, -, hfree⟩ := not_refuses_iff.1 hgranted
    have hcalled := hfree a (by rw [hnew]; exact List.mem_append_right _ List.mem_cons_self)
    simp [isCalled] at hcalled

end SlotTable

/-! ### An installation on the registry alone -/

/-- A diagnostic handler with its trap type and its description. -/
abbrev Diagnostic := TrapType × DiagnosticHandler × String

/-- The request for a diagnostic handler. -/
def Diagnostic.proposal (d : Diagnostic) : Proposal :=
  ⟨some (.diagnostic d.2.1), some d.2.2, { priority := diagnosticPriority }⟩

namespace Registry

variable {r : Registry} {barred : Bool} {d : Diagnostic} {ds : List Diagnostic} {t : TrapType}

/-- A request for an entry, which a hart that is barred by the lock makes in vain. -/
def request (barred : Bool) (r : Registry) (t : TrapType) (p : Proposal) :
    RegistryStatus × Registry :=
  if barred then (.locked, r) else r.add t p

/-- The diagnostic handlers of a list that are not refused, and the registry with them. -/
def install (barred : Bool) : List Diagnostic → Registry → List Diagnostic × Registry
  | [], r => ([], r)
  | d :: ds, r =>
    let asked := r.request barred d.1 d.proposal
    let rest := install barred ds asked.2
    (if asked.1 = .ok then d :: rest.1 else rest.1, rest.2)

/-- Whether the request for a diagnostic handler is refused. -/
def Refuses (barred : Bool) (r : Registry) (d : Diagnostic) : Prop :=
  barred = true ∨ (r.bucket d.1).Refuses d.proposal

theorem refuses_iff : r.Refuses barred d ↔ (r.request barred d.1 d.proposal).1 ≠ .ok := by
  cases barred with
  | true => simp [Refuses, request]
  | false => simp [Refuses, request, add_eq, SlotTable.Refuses]

/-- Only the trap type of a request may change, and only if the hart is not barred. -/
theorem bucket_request (barred : Bool) (r : Registry) (s t : TrapType) (p : Proposal) :
    (r.request barred s p).2.bucket t =
      if barred = false ∧ s = t then ((r.bucket t).add p).2 else r.bucket t := by
  cases barred with
  | true => rfl
  | false => simpa [request] using bucket_add r s t p

theorem Refuses.request (h : r.Refuses barred d) (s : TrapType) (p : Proposal) :
    (r.request barred s p).2.Refuses barred d := by
  refine h.imp_right fun h => ?_
  rw [bucket_request]
  split
  · exact h.add p
  · exact h

theorem refuses_request_self (barred : Bool) (r : Registry) (d : Diagnostic) :
    (r.request barred d.1 d.proposal).2.Refuses barred d := by
  cases barred with
  | true => exact .inl rfl
  | false =>
    refine .inr ?_
    rw [bucket_request, if_pos ⟨rfl, rfl⟩]
    exact (r.bucket d.1).refuses_add_self d.proposal

theorem request_of_refuses (h : r.Refuses barred d) :
    (r.request barred d.1 d.proposal).2 = r := by
  rw [refuses_iff] at h
  cases barred with
  | true => rfl
  | false =>
    rw [request, if_neg (by simp)] at h ⊢
    exact add_of_refused h

theorem Refuses.install (h : r.Refuses barred d) (ds : List Diagnostic) :
    (install barred ds r).2.Refuses barred d := by
  induction ds generalizing r with
  | nil => exact h
  | cons e ds ih => exact ih (h.request e.1 e.proposal)

/-- What an installation asked for is refused after it. -/
theorem refuses_install_of_mem (hd : d ∈ ds) (r : Registry) :
    (install barred ds r).2.Refuses barred d := by
  induction ds generalizing r with
  | nil => cases hd
  | cons e ds ih =>
    rcases List.mem_cons.1 hd with rfl | hds
    · exact (refuses_request_self barred r d).install ds
    · exact ih hds _

/-- An installation of which every request is refused changes nothing. -/
theorem install_of_refuses (h : ∀ d ∈ ds, r.Refuses barred d) : install barred ds r = ([], r) := by
  induction ds with
  | nil => rfl
  | cons d ds ih =>
    obtain ⟨hd, hds⟩ := List.forall_mem_cons.1 h
    simp only [install, request_of_refuses hd, ih hds, if_neg (refuses_iff.1 hd)]

/-- A second installation of the same handlers finds all of them refused. -/
theorem install_twice (barred : Bool) (ds : List Diagnostic) (r : Registry) :
    install barred ds (install barred ds r).2 = ([], (install barred ds r).2) :=
  install_of_refuses fun _ hd => refuses_install_of_mem hd r

theorem install_sublist (barred : Bool) (ds : List Diagnostic) (r : Registry) :
    (install barred ds r).1.Sublist ds := by
  induction ds generalizing r with
  | nil => exact .slnil
  | cons d ds ih =>
    rw [install]
    split
    · exact (ih _).cons_cons d
    · exact (ih _).cons d

/-- A trap type that an installation asks nothing for stays as it is. -/
theorem bucket_install_of_forall_ne (h : ∀ d ∈ ds, d.1 ≠ t) (r : Registry) :
    (install barred ds r).2.bucket t = r.bucket t := by
  induction ds generalizing r with
  | nil => rfl
  | cons d ds ih =>
    obtain ⟨hd, hds⟩ := List.forall_mem_cons.1 h
    rw [install, ih hds, bucket_request, if_neg fun hc => hd hc.2]

/-- An installation that asks once at most for each trap type adds one entry to the types of the
handlers that are not refused, and none elsewhere. -/
theorem bucket_install (once : (ds.map Prod.fst).Nodup) (r : Registry) (t : TrapType) :
    let installed := install barred ds r
    (∃ d ∈ installed.1, d.1 = t ∧ ∃ before behind,
      (r.bucket t).toList = before ++ behind ∧
        (installed.2.bucket t).toList = before ++ d.proposal :: behind) ∨
    ((∀ d ∈ installed.1, d.1 ≠ t) ∧ installed.2.bucket t = r.bucket t) := by
  induction ds generalizing r with
  | nil => exact .inr ⟨List.forall_mem_nil _, rfl⟩
  | cons d ds ih =>
    rw [List.map_cons, List.nodup_cons] at once
    obtain ⟨hfresh, honce⟩ := once
    intro installed
    by_cases ht : d.1 = t
    · -- the requests that follow are for other types
      have hothers : ∀ e ∈ ds, e.1 ≠ t := fun e he heq =>
        hfresh (List.mem_map.2 ⟨e, he, heq.trans ht.symm⟩)
      have hbucket : installed.2.bucket t = (r.request barred d.1 d.proposal).2.bucket t :=
        bucket_install_of_forall_ne hothers _
      by_cases hrefuses : r.Refuses barred d
      · refine .inr ⟨fun e he => ?_, by rw [hbucket, request_of_refuses hrefuses]⟩
        simp only [installed, install, if_neg (refuses_iff.1 hrefuses)] at he
        exact hothers e ((install_sublist _ _ _).subset he)
      · have hmem : d ∈ installed.1 := by
          simp only [installed, install, if_pos (not_not.1 (refuses_iff.not.1 hrefuses))]
          exact List.mem_cons_self
        obtain ⟨hfree, hgranted⟩ := not_or.1 hrefuses
        rw [bucket_request, if_pos ⟨by simpa using hfree, ht⟩] at hbucket
        rw [ht] at hgranted
        rcases (r.bucket t).add_cases d.proposal with ⟨h, -⟩ | ⟨-, -, before, behind, hold, hnew⟩
        · exact absurd h hgranted
        · exact .inl ⟨d, hmem, ht, before, behind, hold, by rw [hbucket, hnew]⟩
    · have hkept : (r.request barred d.1 d.proposal).2.bucket t = r.bucket t := by
        rw [bucket_request, if_neg fun hc => ht hc.2]
      rcases ih honce (r.request barred d.1 d.proposal).2 with ⟨e, he, hsplit⟩ | ⟨hnone, heq⟩
      · refine .inl ⟨e, ?_, hkept ▸ hsplit⟩
        simp only [installed, install]
        split
        · exact List.mem_cons_of_mem d he
        · exact he
      · refine .inr ⟨fun e he => ?_, heq.trans hkept⟩
        simp only [installed, install] at he
        split at he
        · rcases List.mem_cons.1 he with rfl | he
          · exact ht
          · exact hnone e he
        · exact hnone e he

end Registry

/-! ### An installation on a machine -/

/-- What a request to the registry depends on: the registry, whether its lock is taken, and whether
it is the running hart that took it. -/
def Machine.reception (m : Machine σ) : Registry × Bool × Bool :=
  (m.system.registry, m.system.lock.flag, m.system.lock.isHeldBy m.hart)

/-- No hart but the running one holds the lock of the registry, so a request does not wait. -/
def Machine.Unhindered (m : Machine σ) : Prop :=
  m.system.lock.flag = true → m.system.lock.isHeldBy m.hart = true

namespace Machine

variable {m m' : Machine σ} {r : Registry}

theorem reception_asked (m : Machine σ) : m.asked.reception = m.reception := by
  rw [reception, reception, hart_asked, system_asked]

/-- Only the number of the hart counts on the platform. -/
theorem reception_set_platform {p : Platform} (h : p.hartId.1 = m.platform.hartId.1) :
    (thePlatform.set p m).reception = m.reception := by
  have hhart : (thePlatform.set p m).hart = m.hart := hart_congr rfl h
  rw [reception, hhart]
  rfl

theorem eq_of_reception (h : m'.reception = (r, m.reception.2)) :
    m'.system.registry = r ∧ m'.system.lock.flag = m.system.lock.flag ∧
      m'.system.lock.isHeldBy m'.hart = m.system.lock.isHeldBy m.hart := by
  simpa [reception] using h

theorem Unhindered.of_reception (hm : m.Unhindered) (h : m'.reception = (r, m.reception.2)) :
    m'.Unhindered := by
  obtain ⟨-, hflag, hheld⟩ := eq_of_reception h
  rw [Unhindered, hflag, hheld]
  exact hm

end Machine

namespace System

theorem note_keeps_reception (kind : EventKind) (name : Text) (value : UInt64) :
    Exec.Keeps (note (σ := σ) kind name value) Machine.reception :=
  note_keeps (fun _ => Machine.reception_set_platform (Platform.hartId_fst_congr rfl rfl rfl))
    (fun _ _ => rfl) kind name value

/-- A request for an entry, unless it waits for another hart, is one to the registry alone. -/
theorem runOn_register {m : Machine σ} (unhindered : m.Unhindered) (t : TrapType)
    (p : Proposal) :
    let asked := m.system.registry.request (m.system.lock.isHeldBy m.hart) t p
    ∃ m', Exec.runOn (register t p) m = (.ok asked.1, m') ∧
      m'.reception = (asked.2, m.reception.2) := by
  intro asked
  -- what is noted afterwards is not seen by requests, so the locked part tells it all
  have hlocked : ∃ m₁, Exec.runOn (locked (Machine.theRegistry.change (·.add t p))
      (return .locked)) m = (.ok asked.1, m₁) ∧ m₁.reception = (asked.2, m.reception.2) := by
    obtain ⟨platform, ⟨hflag, hrun⟩ | ⟨hflag, -⟩⟩ :=
      runOn_locked_change (fun r => r.add t p) RegistryStatus.locked m
    · have hbarred : m.system.lock.isHeldBy m.hart = false := by rw [Spinlock.isHeldBy, hflag]; rfl
      have hasked : asked = m.system.registry.add t p := by
        simp only [asked, hbarred, Registry.request]
        rfl
      rw [hasked]
      refine ⟨_, hrun, ?_⟩
      rw [Machine.reception, Machine.reception, hbarred, hflag]
      rfl
    · have hbarred := unhindered hflag
      have hasked : asked = (.locked, m.system.registry) := by
        simp only [asked, hbarred, Registry.request]
        rfl
      have hrun := runOn_withLock_of_taken lock_apart_platform
        (Machine.theRegistry.change fun r => r.add t p) RegistryStatus.locked hflag
      have hheld : (Machine.theLock.get m).isHeldBy m.hart = true := hbarred
      rw [if_pos hheld] at hrun
      rw [hasked]
      exact ⟨m.asked, hrun, m.reception_asked⟩
  obtain ⟨m₁, hrun, hreception⟩ := hlocked
  rw [register, Exec.runOn_bind_of_ok hrun]
  by_cases hok : asked.1 = .ok
  · obtain ⟨_, m₂, hnote⟩ := note_returns .handlerAdded t.name p.terms.registrar m₁
    rw [if_pos hok, Exec.runOn_bind_of_ok hnote]
    exact ⟨m₂, rfl, ((note_keeps_reception _ _ _).of_runOn hnote).trans hreception⟩
  · rw [if_neg hok]
    exact ⟨m₁, rfl, hreception⟩

/-- A series of requests for diagnostic handlers is an installation on the registry alone. -/
theorem runOn_installDiagnosticsFrom (ds : List Diagnostic) {m : Machine σ}
    (unhindered : m.Unhindered) :
    let installed := Registry.install (m.system.lock.isHeldBy m.hart) ds m.system.registry
    ∃ m', Exec.runOn (installDiagnosticsFrom ds) m = (.ok installed.1.length, m') ∧
      m'.reception = (installed.2, m.reception.2) := by
  induction ds generalizing m with
  | nil => exact ⟨m, rfl, rfl⟩
  | cons d ds ih =>
    intro installed
    obtain ⟨m₁, hasked, hreception⟩ := runOn_register unhindered d.1 d.proposal
    obtain ⟨hregistry, -, hheld⟩ := Machine.eq_of_reception hreception
    obtain ⟨m₂, hrest, hthen⟩ := ih (unhindered.of_reception hreception)
    rw [hregistry, hheld] at hrest hthen
    refine ⟨m₂, ?_, hthen.trans ?_⟩
    · rw [installDiagnosticsFrom]
      refine (Exec.runOn_bind_of_ok hasked).trans ((Exec.runOn_bind_of_ok hrest).trans ?_)
      simp only [installed, Registry.install]
      split <;> rfl
    · rw [hreception]
      rfl

variable [Client σ] (returns : ConsoleReturns σ)
  (quiet : ∀ text, Exec.Keeps (Client.written (σ := σ) text) Machine.reception)

include returns quiet

/-- An installation on a machine is one on its registry. -/
theorem runOn_installDiagnostics {m : Machine σ} (unhindered : m.Unhindered) :
    let installed := Registry.install (m.system.lock.isHeldBy m.hart) diagnosticHandlers
      m.system.registry
    ∃ m', Exec.runOn installDiagnostics m = (.ok installed.1.length, m') ∧
      m'.reception = (installed.2, m.reception.2) := by
  intro installed
  obtain ⟨m₁, hrun, hreception⟩ := runOn_installDiagnosticsFrom diagnosticHandlers unhindered
  have hwrite (t : Text) (m : Machine σ) :
      (Machine.thePlatform.set (m.platform.write t) m).reception = m.reception :=
    Machine.reception_set_platform (Platform.hartId_fst_congr rfl rfl rfl)
  obtain ⟨_, m₂, hput⟩ := putLine_returns returns
    (if m₁.system.bound && m₁.platform.interfaces.console then .console else .nowhere)
    ["[TRAP] ", Numeral.decimal installed.1.length, " diagnostic handlers installed\n"] m₁
  have hkept : m₂.reception = m₁.reception := (putLine_keeps hwrite quiet _ _).of_runOn hput
  refine ⟨m₂, ?_, hkept.trans hreception⟩
  rw [installDiagnostics, Exec.runOn_bind_of_ok hrun]
  exact (Exec.runOn_bind_of_ok hput).trans rfl

end System

/-- **Diagnostics install once.**  Let the observers of the console return and leave alone what a
request to the registry depends on, and let no hart but the running one hold the lock of the
registry; nothing is asked of the registry.  An installation returns the number of the entries that
it added.  They are of different types, and each of them stands in the bucket of its type among the
entries that were there before, which keep their order; no other bucket changes.  An installation on
any machine that requests to the registry cannot tell from the one that the first left adds nothing
and returns zero, and the interface reports that as a failure. -/
theorem diagnostics_install_once [Client σ] (returns : ConsoleReturns σ)
    (quiet : ∀ text, Exec.Keeps (Client.written (σ := σ) text) Machine.reception)
    {m : Machine σ} (unhindered : m.Unhindered) :
    ∃ (added : List Diagnostic) (m₁ : Machine σ),
      Exec.runOn System.installDiagnostics m = (.ok added.length, m₁) ∧
      added.Sublist System.diagnosticHandlers ∧ (added.map Prod.fst).Nodup ∧
      (∀ t,
        let old := m.system.registry.bucket t
        let new := m₁.system.registry.bucket t
        (∃ d ∈ added, d.1 = t ∧ ∃ before behind, old.toList = before ++ behind ∧
          new.toList = before ++ d.proposal :: behind) ∨
        ((∀ d ∈ added, d.1 ≠ t) ∧ new = old)) ∧
      ∀ m₂ : Machine σ, m₂.reception = m₁.reception →
        (∃ m₃, Exec.runOn System.installDiagnostics m₂ = (.ok 0, m₃) ∧
          m₃.system.registry = m₁.system.registry) ∧
        (m₂.system.ready = true → ∃ m₃,
          Exec.runOn Api.installDiagnostics m₂ = (.ok .registrationFailed, m₃) ∧
          m₃.system.registry = m₁.system.registry) := by
  have honce : (System.diagnosticHandlers.map Prod.fst).Nodup := by decide
  obtain ⟨m₁, hrun, hreception⟩ := System.runOn_installDiagnostics returns quiet unhindered
  obtain ⟨hregistry, -, hheld⟩ := Machine.eq_of_reception hreception
  have hsublist := Registry.install_sublist (m.system.lock.isHeldBy m.hart)
    System.diagnosticHandlers m.system.registry
  refine ⟨_, m₁, hrun, hsublist, (hsublist.map Prod.fst).nodup honce, fun t => ?_,
    fun m₂ hsame => ?_⟩
  · rw [hregistry]
    exact Registry.bucket_install honce m.system.registry t
  · -- the second installation comes upon the registry that the first left, and on the same lock
    have hunhindered : m₂.Unhindered :=
      (unhindered.of_reception hreception).of_reception hsame
    obtain ⟨hregistry₂, -, hheld₂⟩ := Machine.eq_of_reception hsame
    obtain ⟨m₃, hagain, hthen⟩ := System.runOn_installDiagnostics returns quiet hunhindered
    rw [hheld₂, hheld, hregistry₂, hregistry, Registry.install_twice] at hagain hthen
    have hunchanged : m₃.system.registry = m₁.system.registry :=
      (congrArg Prod.fst hthen).trans hregistry.symm
    refine ⟨⟨m₃, hagain, hunchanged⟩, fun hready => ⟨m₃, ?_, hunchanged⟩⟩
    rw [Api.installDiagnostics, Api.whenReady_of_ready hready]
    exact (Exec.runOn_bind_of_ok hagain).trans rfl

/-- The machine of the tenant with a handler of a registrar that goes by the description of a
diagnostic handler. -/
def Tenant.posing : Machine Tenant :=
  (Exec.runOn ((OwnedCall.register .breakpoint (some (.client 0)) 200
    (some "Diagnostic Breakpoint") none).perform 1) Tenant.machine).2

/-- Where one description is taken, the other eight diagnostic handlers are installed, and that
once. -/
theorem tenant_installs_diagnostics_once :
    Tenant.posing.system.ready = true ∧
    ∃ m₁, Exec.runOn System.installDiagnostics Tenant.posing = (.ok 8, m₁) ∧
      (m₁.system.registry.bucket .breakpoint).toList =
        (Tenant.posing.system.registry.bucket .breakpoint).toList ∧
      ∃ m₂, Exec.runOn System.installDiagnostics m₁ = (.ok 0, m₂) ∧
        m₂.system.registry = m₁.system.registry := by
  refine ⟨by decide +kernel, ?_⟩
  have hfree : Tenant.posing.system.lock.flag = false := by decide +kernel
  have hfirst : (Exec.runOn System.installDiagnostics Tenant.posing).1 = .ok 8 := by
    decide +kernel
  have hbreakpoint : ((Exec.runOn System.installDiagnostics Tenant.posing).2.system.registry.bucket
      .breakpoint).toList = (Tenant.posing.system.registry.bucket .breakpoint).toList := by
    decide +kernel
  obtain ⟨added, m₁, hrun, -, -, -, hagain⟩ := diagnostics_install_once (σ := Tenant)
    (fun _ m => ⟨(), m, rfl⟩) (fun _ _ => rfl) (m := Tenant.posing)
    (by simp [Machine.Unhindered, hfree])
  rw [hrun] at hfirst hbreakpoint
  exact ⟨m₁, hrun.trans (Prod.ext hfirst rfl), hbreakpoint, (hagain m₁ rfl).1⟩

end Supervisor
