/-
The diagnostic tier.

The diagnostic handlers share a priority, and the interface takes no handler of a registrar that is
due before them.  So a handler of a registrar can stand before a diagnostic handler only with the
very priority of the tier, and then it does so exactly if it came first.

* `Registry.IsDiagnostic` — the entries that the installation of the diagnostic handlers makes;
* `Registry.Change.Tiered` — changes that put no entry of a registrar before its time;
* `Registry.overtakes_iff` — when an entry of a registrar stands before a diagnostic handler;
* `Registry.not_overtakes_foldl` — who comes later stays behind;
* `Api.Session` — programs that use the interface and take traps;
* `users_overtake_only_at_par` — buckets, and the calls for a trap, after any session.
-/
import Supervisor.Proofs.Api.Calls
import Supervisor.Proofs.Registry.Access
import Supervisor.Proofs.Trap.Snapshot
import Supervisor.Proofs.Trap.Work

namespace Supervisor

open Registry (Change)

variable {σ α β : Type}

/-! ### The tier -/

namespace Registry

/-- Whether an entry is one that the installation of the diagnostic handlers makes for a type. -/
def IsDiagnostic (t : TrapType) (d : Proposal) : Prop :=
  ∃ x ∈ System.diagnosticHandlers, x.1 = t ∧
    d = ⟨some (.diagnostic x.2.1), some x.2.2, { priority := diagnosticPriority }⟩

/-- Whether a change puts no entry of a registrar before the diagnostic handlers for its
priority. -/
def Change.Tiered : Change → Prop
  | .add _ p => p.terms.protection = .user → diagnosticPriority ≤ p.terms.priority
  | _ => True

theorem IsDiagnostic.priority_eq {t : TrapType} {d : Proposal} (h : IsDiagnostic t d) :
    d.terms.priority = diagnosticPriority := by
  obtain ⟨x, -, -, rfl⟩ := h
  rfl

variable {l : List Proposal} {changes later : List Change} {t : TrapType} {p d : Proposal}

/-- What stands in the ledger of a type was added to it. -/
theorem add_mem_of_mem_foldl (h : p ∈ changes.foldl (Change.enter t) l) :
    p ∈ l ∨ .add t p ∈ changes := by
  induction changes generalizing l with
  | nil => exact .inl h
  | cons c changes ih =>
    rcases ih h with hp | hp
    · rcases List.mem_append.1 hp with hkept | hadded
      · exact .inl (List.mem_of_mem_filter hkept)
      · obtain ⟨rfl, -⟩ := mem_adds_iff.1 hadded
        exact .inr List.mem_cons_self
    · exact .inr (List.mem_cons_of_mem c hp)

/-- No entry of a registrar is due before the diagnostic handlers. -/
theorem diagnosticPriority_le (tiered : ∀ c ∈ changes, c.Tiered) (user : p.terms.protection = .user)
    (h : p ∈ ledger changes t) : diagnosticPriority ≤ p.terms.priority := by
  rcases add_mem_of_mem_foldl h with hp | hp
  · cases hp
  · exact tiered _ hp user

/-- An entry of a registrar stands before a diagnostic handler exactly if it has the priority of
the tier and came first. -/
theorem overtakes_iff (tiered : ∀ c ∈ changes, c.Tiered) (user : p.terms.protection = .user)
    (hd : IsDiagnostic t d) :
    [p, d].Sublist ((run {} changes).bucket t).toList ↔
      p.terms.priority = diagnosticPriority ∧ [p, d].Sublist (ledger changes t) := by
  have hsorted : ((run {} changes).bucket t).toList = byPriority (ledger changes t) :=
    (holds_run changes t).toList_eq
  have hpriority : d.terms.priority = diagnosticPriority := hd.priority_eq
  rw [hsorted]
  constructor
  · intro h
    have hp : p ∈ ledger changes t := mem_byPriority.1 (h.subset List.mem_cons_self)
    have hle : p.terms.priority ≤ d.terms.priority := (ascending_byPriority _).priority_le h
    have heq : p.terms.priority = diagnosticPriority :=
      UInt8.le_antisymm (hpriority ▸ hle) (diagnosticPriority_le tiered user hp)
    exact ⟨heq, (pair_sublist_byPriority (heq.trans hpriority.symm)).1 h⟩
  · rintro ⟨heq, h⟩
    exact (pair_sublist_byPriority (heq.trans hpriority.symm)).2 h

/-- What stands in the ledger is not added to it. -/
theorem not_mem_adds (hp : p ∈ l) (c : Change) : p ∉ c.adds t l := by
  intro h
  obtain ⟨-, -, hnew⟩ := Ledger.status_eq_ok_iff.1 (mem_adds_iff.1 h).2
  exact hnew p hp rfl

/-- Whoever does not stand before an entry does not get there as long as that entry stays. -/
theorem not_overtakes_foldl (hd : d ∈ l) (h : ¬[p, d].Sublist l)
    (hstays : ∀ c ∈ later, ¬TakesAway t d c) :
    ¬[p, d].Sublist (later.foldl (Change.enter t) l) := by
  induction later generalizing l with
  | nil => exact h
  | cons c later ih =>
    obtain ⟨hc, hlater⟩ := List.forall_mem_cons.1 hstays
    refine ih ((mem_enter_iff hd c).2 hc) (fun hnow => ?_) hlater
    -- what is added comes last, and the entry itself is not added
    obtain ⟨xs, ys, hsplit, hxs, hys⟩ := List.sublist_append_iff.1 hnow
    rcases List.eq_nil_or_concat ys with rfl | ⟨ys, b, rfl⟩
    · rw [List.append_nil] at hsplit
      exact h (hsplit ▸ hxs.trans List.filter_sublist)
    · rw [List.concat_eq_append] at hsplit hys
      have hlast : [p] ++ [d] = (xs ++ ys) ++ [b] := by
        rw [List.append_assoc]
        exact hsplit
      obtain ⟨-, hb⟩ := List.append_inj' hlast rfl
      obtain ⟨rfl, -⟩ := List.cons.inj hb
      exact not_mem_adds hd c (hys.subset (List.mem_append_right _ (List.mem_singleton_self _)))

end Registry

/-- The request that an entry was made of. -/
def Entry.proposal (e : Entry) : Proposal := ⟨some e.handler, some e.description, e.terms⟩

theorem Proposal.eq_of_toEntry {p : Proposal} {e : Entry} (h : p.toEntry = some e) :
    p = e.proposal := by
  obtain ⟨handler, description, terms⟩ := p
  cases handler with
  | none => cases h
  | some handler =>
    cases description with
    | none => cases h
    | some description =>
      obtain rfl := Option.some.inj h
      rfl

/-- The entries of a type stand in the order of their requests. -/
theorem Registry.sublist_of_entries {r : Registry} {t : TrapType} {es : List Entry}
    (h : es.Sublist (r.entries t)) : (es.map Entry.proposal).Sublist (r.bucket t).toList := by
  obtain ⟨ps, hps, rfl⟩ := List.sublist_filterMap_iff.1 h
  refine List.Sublist.trans ?_ hps
  clear h hps
  induction ps with
  | nil => exact List.Sublist.refl _
  | cons p ps ih =>
    cases he : p.toEntry with
    | none =>
      rw [List.filterMap_cons_none he]
      exact ih.cons p
    | some e =>
      rw [List.filterMap_cons_some he, Proposal.eq_of_toEntry he]
      exact ih.cons_cons e.proposal

/-! ### Sessions -/

namespace Api

/-- Programs that call the interface, ask it to start the system, and take traps.  What they do on
their own leaves the registry alone.  The handlers and the observers are such programs as well. -/
inductive Session : {α : Type} → Exec σ α → Prop
  | own {α : Type} {x : Exec σ α} (keeps : Exec.Keeps x (·.system.registry)) : Session x
  | call (client : Client σ) (written : ∀ text, Session (client.written text))
      (handlers : ∀ n e, Session (client.errorHandler n e)) (c : Call) :
      Session (@Call.perform σ client c)
  | start (client : Client σ) (written : ∀ text, Session (client.written text))
      (handlers : ∀ n e, Session (client.errorHandler n e)) (mode : TrapMode) :
      Session (@Api.start σ client mode)
  | trap (client : Client σ) (written : ∀ text, Session (client.written text))
      (handlers : ∀ n e, Session (client.errorHandler n e))
      (traps : ∀ n f, Session (TrapExec.onFrame (client.trapHandler n) f)) (f : Frame) :
      Session (TrapExec.onFrame (@takeTrap σ client) f)
  | bind {α β : Type} {x : Exec σ α} {f : α → Exec σ β} (first : Session x)
      (next : ∀ a, Session (f a)) : Session (x >>= f)
  | tryCatch {α : Type} {x : Exec σ α} {h : Stop → Exec σ α} (body : Session x)
      (caught : ∀ e, Session (h e)) : Session (tryCatch x h)

/-- What a call asks of the registry keeps to the tiers. -/
theorem Call.asks_tiered (c : Call) : ∀ x ∈ c.asks, x.Tiered := by
  cases c with
  | register =>
    intro x hx
    rw [List.mem_singleton.1 hx]
    exact fun huser => nomatch huser
  | registerOwned t handler priority description context g =>
    intro x hx
    rw [asks_registerOwned] at hx
    split at hx
    · cases hx
    · rename_i hallowed
      rw [List.mem_singleton.1 hx]
      exact fun _ => UInt8.not_lt.1 fun hlt => hallowed (.inr hlt)
  | installDiagnostics =>
    intro x hx
    obtain ⟨d, -, rfl⟩ := List.mem_map.1 hx
    exact fun huser => nomatch huser
  | unregister | unregisterOwned | purge | unregisterBound =>
    intro x hx
    rw [List.mem_singleton.1 hx]
    trivial
  | _ => exact fun x hx => nomatch hx

end Api

/-- Between two machines the registry has gone through changes that keep to the tiers. -/
def Tiering (m m' : Machine σ) : Prop :=
  ∃ changes : List Change, (∀ c ∈ changes, c.Tiered) ∧
    m'.system.registry = m.system.registry.run changes

namespace Tiering

theorem of_eq {m m' : Machine σ} (h : m'.system.registry = m.system.registry) : Tiering m m' :=
  ⟨[], List.forall_mem_nil _, h⟩

instance : IsPreorder (Machine σ) Tiering where
  refl _ := of_eq rfl
  trans m m₁ m₂ := by
    rintro ⟨changes, htiered, hrun⟩ ⟨later, hlater, hthen⟩
    refine ⟨changes ++ later, List.forall_mem_append.2 ⟨htiered, hlater⟩, ?_⟩
    rw [hthen, hrun]
    exact List.foldl_append.symm

theorem of_outline {m m' : Machine σ} (h : m'.outline = m.outline) : Tiering m m' :=
  of_eq (congrArg Prod.fst h)

theorem of_change {c : Change} (hc : c.Tiered) {m m' : Machine σ}
    (h : m'.outline = (m.system.registry.after c, m.outline.2)) : Tiering m m' :=
  ⟨[c], fun _ hx => List.mem_singleton.1 hx ▸ hc, congrArg Prod.fst h⟩

end Tiering

section

variable [Client σ] (written : ∀ text, Exec.Leads (Client.written (σ := σ) text) Tiering)
  (handlers : ∀ n e, Exec.Leads (Client.errorHandler (σ := σ) n e) Tiering)

include written handlers

theorem Tiering.of_work {x : Exec σ α} (h : Work Change.Tiered x) : Exec.Leads x Tiering :=
  h.leads (fun _ _ => .of_outline) (fun _ hc _ _ => .of_change hc) written handlers

theorem System.start_tiering (mode : TrapMode) : Exec.Leads (start (σ := σ) mode) Tiering := by
  have hclaim : Exec.Leads (claim (σ := σ)) Tiering := fun _ => .of_eq rfl
  have hpublish : Exec.Leads (publish (σ := σ)) Tiering := fun _ => .of_eq rfl
  have hsetUp : Work Change.Tiered (setUp (σ := σ) mode) :=
    setUp_work mode fun _ _ huser => nomatch huser
  refine .bind hclaim fun first => .ite ?_ ?_
  · exact .bind (.of_work written handlers hsetUp) fun _ => .bind hpublish fun _ => .pure _
  · refine .bind (.bind (.of_work written handlers ignoreRequest_work) fun _ => ?_) fun _ => .pure _
    exact .bind .get fun _ => .ite (.pure _) (.throw _)

theorem Api.Call.perform_tiering (c : Api.Call) : Exec.Leads (c.perform (σ := σ)) Tiering := by
  cases hdraws : c.draws with
  | false => exact .of_work written handlers (perform_work hdraws c.asks_tiered)
  | true =>
    cases c with
    | newContextId | newRegistrar => exact fun _ => .of_eq rfl
    | _ => cases hdraws

end

/-- A session makes only changes that keep to the tiers. -/
theorem Api.Session.tiering {x : Exec σ α} (h : Session x) : Exec.Leads x Tiering := by
  induction h with
  | own keeps => exact .of_keeps keeps fun _ _ => .of_eq
  | call client _ _ c written handlers =>
    let _ := client
    exact c.perform_tiering written handlers
  | start client _ _ mode written handlers =>
    let _ := client
    exact .bind (System.start_tiering written handlers mode) fun _ =>
      .bind (fun _ => .of_eq rfl) fun _ => .pure _
  | trap client _ _ _ f written handlers traps =>
    let _ := client
    exact takeTrap_work.leads (fun _ _ => Tiering.of_outline) written handlers
      (fun n f m => traps n f m) f
  | bind _ _ ihx ihf => exact .bind ihx ihf
  | tryCatch _ _ ihx ihh => exact .tryCatch ihx ihh

open Registry in
/-- **A registrar overtakes the diagnostic handlers only at their own priority.**  Let the changes
of the registry so far keep to the tiers; at first there are none.  A session, however it ends, adds
changes that keep to them as well, whatever it registers, removes and installs, and in which order.
Then, for every trap type, a handler of a registrar stands before a diagnostic handler exactly if it
has the priority of the tier and was registered first.  If it did not stand there before the
session, it does not get there as long as that diagnostic handler stays.  No trap calls a handler of
a registrar before a diagnostic handler otherwise. -/
theorem users_overtake_only_at_par {m : Machine σ} {before : List Change}
    (tiered : ∀ c ∈ before, c.Tiered) (reachable : m.system.registry = run {} before)
    {x : Exec σ α} (session : Api.Session x) :
    let m' := (Exec.runOn x m).2
    ∃ later : List Change, (∀ c ∈ later, c.Tiered) ∧
      m'.system.registry = run {} (before ++ later) ∧
      ∀ t p d, p.terms.protection = .user → IsDiagnostic t d →
        let old := (m.system.registry.bucket t).toList
        let new := (m'.system.registry.bucket t).toList
        ([p, d].Sublist new ↔
          p.terms.priority = diagnosticPriority ∧ [p, d].Sublist (ledger (before ++ later) t)) ∧
        (d ∈ old → ¬[p, d].Sublist old → (∀ c ∈ later, ¬TakesAway t d c) →
          ¬[p, d].Sublist new) ∧
        ∀ (calls : List (Call Entry Verdict (TrapState σ))) (c e),
          UpTo Verdict.Claims (m'.system.registry.entries t) calls → [c, e].Sublist calls →
          c.entry.proposal = p → e.entry.proposal = d →
          p.terms.priority = diagnosticPriority ∧ [p, d].Sublist (ledger (before ++ later) t) := by
  intro m'
  obtain ⟨later, hlater, hrun⟩ := session.tiering m
  have hregistry : m'.system.registry = run {} (before ++ later) := by
    show (Exec.runOn x m).2.system.registry = _
    rw [hrun, reachable]
    exact List.foldl_append.symm
  have hall : ∀ c ∈ before ++ later, c.Tiered := List.forall_mem_append.2 ⟨tiered, hlater⟩
  refine ⟨later, hlater, hregistry, ?_⟩
  intro t p d user diagnostic old new
  have hiff : [p, d].Sublist new ↔
      p.terms.priority = diagnosticPriority ∧ [p, d].Sublist (ledger (before ++ later) t) := by
    simp only [new, hregistry]
    exact overtakes_iff hall user diagnostic
  refine ⟨hiff, fun hd hbehind hstays hnow => ?_, fun calls c e hupTo hcalls hc he => ?_⟩
  · -- in the ledger of the changes so far the diagnostic handler stands first or alone
    simp only [old, reachable] at hd hbehind
    obtain ⟨hpar, hledger⟩ := hiff.1 hnow
    have hmem : d ∈ ledger before t := ((holds_run before) t).mem_toList.1 hd
    have hfirst : ¬[p, d].Sublist (ledger before t) := fun h =>
      hbehind ((overtakes_iff tiered user diagnostic).2 ⟨hpar, h⟩)
    rw [ledger_append] at hledger
    exact not_overtakes_foldl hmem hfirst hstays hledger
  · -- the calls go through the entries in their order
    have hentries : ([c, e].map Call.entry).Sublist (m'.system.registry.entries t) := by
      have hcalled : (calls.map Call.entry).Sublist (m'.system.registry.entries t) :=
        hupTo.inOrder ▸ List.take_sublist _ _
      exact (hcalls.map Call.entry).trans hcalled
    have hpair : ([c, e].map fun call => call.entry.proposal) = [p, d] := by
      rw [← hc, ← he]
      rfl
    have hslots := sublist_of_entries hentries
    rw [List.map_map] at hslots
    exact hiff.1 (hpair ▸ hslots)

/-- Somebody starts the system, registers a handler of breakpoints and installs the diagnostic
handlers. -/
def Tenant.debugs (priority : UInt8) : Exec Tenant (Api.Answer × Api.Answer) := do
  let _ ← Api.start .direct
  let registered ← (Api.Call.registerOwned .breakpoint (some (.client 0)) priority (some "mine")
    none 1).perform
  let installed ← Api.Call.installDiagnostics.perform
  return (registered, installed)

/-- The handler that is registered then. -/
def Tenant.debugger (priority : UInt8) : Proposal :=
  ⟨some (.client 0), some "mine", ⟨priority, .user, 1, none⟩⟩

/-- The diagnostic handler of breakpoints. -/
def Tenant.diagnostic : Proposal :=
  ⟨some (.diagnostic .breakpoint), some "Diagnostic Breakpoint", { priority := diagnosticPriority }⟩

/-- With a later priority the handler stands behind. -/
theorem tenant_stands_behind :
    ¬[Tenant.debugger 20, Tenant.diagnostic].Sublist
      ((Exec.runOn (Tenant.debugs 20) { clients := .here }).2.system.registry.bucket
        .breakpoint).toList := by
  have hquiet (text : Text) : Api.Session (Client.written (σ := Tenant) text) := .own fun _ => rfl
  have hhandlers (n : Nat) (e : SystemError) :
      Api.Session (Client.errorHandler (σ := Tenant) n e) := .own fun _ => rfl
  have hsession : Api.Session (Tenant.debugs 20) := by
    unfold Tenant.debugs
    refine .bind (.start _ hquiet hhandlers _) fun _ => ?_
    refine .bind (.call _ hquiet hhandlers _) fun _ => ?_
    exact .bind (.call _ hquiet hhandlers _) fun _ => .own fun _ => rfl
  have reachable : ({ clients := Tenant.here } : Machine Tenant).system.registry =
      Registry.run {} [] := rfl
  obtain ⟨later, -, -, hrest⟩ :=
    users_overtake_only_at_par (List.forall_mem_nil _) reachable hsession
  obtain ⟨hiff, -⟩ := hrest .breakpoint (Tenant.debugger 20) Tenant.diagnostic rfl
    ⟨(.breakpoint, .breakpoint, "Diagnostic Breakpoint"), by simp [System.diagnosticHandlers], rfl,
      rfl⟩
  intro hahead
  have hpar : (20 : UInt8) = diagnosticPriority := (hiff.1 hahead).1
  exact absurd hpar (by decide)

/-- With the priority of the tier itself a handler of a registrar is taken, and stands before the
diagnostic handler that is installed after it. -/
theorem tenant_overtakes_at_par :
    let ended := Exec.runOn (Tenant.debugs diagnosticPriority) { clients := .here }
    ended.1 = .ok (.status .ok, .status .ok) ∧
    [Tenant.debugger diagnosticPriority, Tenant.diagnostic].Sublist
      (ended.2.system.registry.bucket .breakpoint).toList := by
  decide +kernel

end Supervisor
