/-
What the boot leaves behind.

A boot that comes to its first prompt has made the system ready and has registered the periodic
tick.  From then on the tick stays in its place until a change takes it away that may.

* `Registry.InPlace` — a request was accepted, and its entry has not gone since;
* `Spares` — what happens between two machines does not take such an entry away;
* `System.start_spares`, `System.installDiagnostics_spares` — the start only adds entries;
* `boot_puts_tick_in_place` — all of this for the tick.

Design notes: whoever observes the console may do anything while the kernel boots, traps and
registrations included, as long as it spares the tick.
-/
import Supervisor.Boot
import Supervisor.Proofs.Registry.Access

namespace Supervisor

open Registry

variable {σ α : Type}

/-! ### Entries in place -/

namespace Registry

/-- A request was accepted at some point of the history of a registry, and no change since then
has taken its entry away. -/
def InPlace (t : TrapType) (p : Proposal) (r : Registry) : Prop :=
  ∃ before later, ((run {} before).add t p).1 = .ok ∧ (∀ c ∈ later, ¬TakesAway t p c) ∧
    r = run {} (before ++ .add t p :: later)

variable {t : TrapType} {p : Proposal} {r : Registry}

theorem run_append (r : Registry) (xs ys : List Change) : r.run (xs ++ ys) = (r.run xs).run ys :=
  List.foldl_append

theorem InPlace.of_add {before : List Change} (hr : r = run {} before)
    (hok : (r.add t p).1 = .ok) : InPlace t p (r.add t p).2 := by
  refine ⟨before, [], hr ▸ hok, fun _ hc => absurd hc List.not_mem_nil, ?_⟩
  rw [run_append, ← hr]
  rfl

theorem InPlace.run (h : InPlace t p r) {changes : List Change}
    (hspare : ∀ c ∈ changes, ¬TakesAway t p c) : InPlace t p (r.run changes) := by
  obtain ⟨before, later, hok, hlater, rfl⟩ := h
  refine ⟨before, later ++ changes, hok, ?_, ?_⟩
  · intro c hc
    exact (List.mem_append.1 hc).elim (hlater c) (hspare c)
  · rw [← run_append, List.append_assoc, List.cons_append]

theorem InPlace.mem_entries (h : InPlace t p r) {e : Entry} (he : p.toEntry = some e) :
    e ∈ r.entries t := by
  obtain ⟨before, later, hok, hlater, rfl⟩ := h
  have hmem : p ∈ ledger (before ++ .add t p :: later) t := by
    rw [List.append_cons, ledger_append]
    exact mem_foldl_enter (mem_ledger_of_added hok) hlater
  exact List.mem_filterMap.2 ⟨p, (holds_run _ t).mem_toList.2 hmem, he⟩

end Registry

/-! ### What spares an entry -/

/-- The changes of the registry that lead from one machine to another take no entry for a request
away, and a system that was ready still is. -/
structure Spares (t : TrapType) (p : Proposal) (m m' : Machine σ) : Prop where
  registry : ∃ changes, (∀ c ∈ changes, ¬TakesAway t p c) ∧
    m'.system.registry = m.system.registry.run changes
  ready : m.system.ready = true → m'.system.ready = true

section Spares

variable {t : TrapType} {p : Proposal}

instance : IsPreorder (Machine σ) (Spares t p) where
  refl _ := ⟨⟨[], fun _ hc => absurd hc List.not_mem_nil, rfl⟩, id⟩
  trans := by
    rintro a b c ⟨⟨xs, hxs, hb⟩, hready⟩ ⟨⟨ys, hys, hc⟩, hready'⟩
    refine ⟨⟨xs ++ ys, ?_, ?_⟩, hready' ∘ hready⟩
    · intro x hx
      exact (List.mem_append.1 hx).elim (hxs x) (hys x)
    · rw [hc, hb, run_append]

theorem Spares.reachable {m m' : Machine σ} (h : Spares t p m m') {history : List Change}
    (hm : m.system.registry = Registry.run {} history) :
    ∃ history, m'.system.registry = Registry.run {} history := by
  obtain ⟨changes, -, hm'⟩ := h.registry
  exact ⟨history ++ changes, by rw [hm', hm, run_append]⟩

theorem Spares.inPlace {m m' : Machine σ} (h : Spares t p m m')
    (hm : InPlace t p m.system.registry) : InPlace t p m'.system.registry := by
  obtain ⟨changes, hspare, hm'⟩ := h.registry
  exact hm' ▸ hm.run hspare

/-- The registry of a machine, and whether its system is ready. -/
abbrev Machine.standing (m : Machine σ) : Registry × Bool := (m.system.registry, m.system.ready)

theorem Spares.of_registry {m m' : Machine σ} (h : m'.system.registry = m.system.registry)
    (hready : m.system.ready = true → m'.system.ready = true) : Spares t p m m' where
  registry := ⟨[], fun _ hc => absurd hc List.not_mem_nil, h⟩
  ready := hready

theorem Spares.of_standing {m m' : Machine σ} (h : m'.standing = m.standing) : Spares t p m m' :=
  .of_registry (congrArg Prod.fst h) fun hready => (congrArg Prod.snd h).trans hready

theorem Spares.of_keeps {x : Exec σ α} (hx : Exec.Keeps x Machine.standing) :
    Exec.Leads x (Spares t p) := .of_keeps hx fun _ _ => .of_standing

/-! ### The start of the system -/

theorem System.note_spares (kind : EventKind) (name : Text) (value : UInt64) :
    Exec.Leads (note (σ := σ) kind name value) (Spares t p) :=
  Spares.of_keeps (note_keeps (fun _ => rfl) (fun _ _ => rfl) kind name value)

/-- A registration takes nothing away. -/
theorem System.register_spares (s : TrapType) (q : Proposal) :
    Exec.Leads (register (σ := σ) s q) (Spares t p) := by
  refine .bind (fun m => ?_) fun status =>
    .ite (.bind (note_spares _ _ _) fun _ => .pure _) (.pure _)
  obtain ⟨platform, ⟨-, hrun⟩ | ⟨-, r, -, hrun⟩⟩ :=
    System.runOn_locked_change (fun r => r.add s q) RegistryStatus.locked m
  · rw [hrun]
    refine ⟨⟨[.add s q], ?_, rfl⟩, id⟩
    intro c hc
    rw [List.mem_singleton.1 hc]
    nofun
  · rw [hrun]
    exact .of_standing rfl

variable [Client σ]

section

variable (console : ∀ text, Exec.Leads (Client.written (σ := σ) text) (Spares t p))

include console

theorem putLine_spares (sink : Sink) (pieces : List Text) :
    Exec.Leads (putLine (σ := σ) sink pieces) (Spares t p) :=
  putLine_leads (fun _ _ => .of_standing rfl) console sink pieces

theorem System.installBasic_spares : Exec.Leads (installBasic (σ := σ)) (Spares t p) :=
  .forM fun _ _ => .bind (register_spares _ _) fun _ =>
    .ite (.bind (Spares.of_keeps console_keeps) fun _ => putLine_spares console _ _) (.pure _)

theorem System.installErrors_spares : Exec.Leads (installErrors (σ := σ)) (Spares t p) := by
  have hhart : Exec.Keeps (ErrorSite.system (σ := σ)).currentHart Machine.standing :=
    .bind (.read _) fun _ => .ite (.change (fun _ _ => rfl) _) (.pure 0)
  have hregister (q : ErrorProposal) :
      Exec.Keeps ((ErrorSite.system (σ := σ)).register q) Machine.standing :=
    .ite (.pure _) (.bind hhart fun core => .withLock (fun _ _ => rfl)
      (.change (fun _ _ => rfl) _) (.pure _) core)
  exact .forM fun q _ => .bind (Spares.of_keeps (hregister q)) fun _ =>
    .ite (.bind (Spares.of_keeps console_keeps) fun _ => putLine_spares console _ _) (.pure _)

theorem System.setUp_spares (mode : TrapMode) : Exec.Leads (setUp (σ := σ) mode) (Spares t p) := by
  have htotal : Exec.Keeps (countHandlers (σ := σ)) Machine.standing :=
    locked_keeps (fun _ => rfl) (fun _ _ => rfl) (.bind (.read _) fun _ => .pure _) (.pure 0)
  have hattach : Exec.Leads (modify fun m : Machine σ =>
      { m with system := (attach mode m.platform m.system).1
               platform := (attach mode m.platform m.system).2 }) (Spares t p) :=
    fun _ => .of_standing rfl
  refine .bind hattach fun _ => .bind .get fun _ => .bind .get fun _ => ?_
  refine .ite (.bind (installBasic_spares console) fun _ => ?_) ?_
  all_goals refine .ite (.bind (installErrors_spares console) fun _ => ?_) ?_
  all_goals
    exact .bind (Spares.of_keeps htotal) fun _ => .bind .get fun _ =>
      .bind (Spares.of_keeps console_keeps) fun _ => putLine_spares console _ _

/-- The start of the system only adds entries. -/
theorem System.start_spares (mode : TrapMode) : Exec.Leads (start (σ := σ) mode) (Spares t p) := by
  have hclaim : Exec.Leads (claim (σ := σ)) (Spares t p) := fun _ => .of_standing rfl
  have hpublish : Exec.Leads (publish (σ := σ)) (Spares t p) :=
    fun _ => .of_registry rfl fun _ => rfl
  have hignore : Exec.Leads (ignoreRequest (σ := σ)) (Spares t p) :=
    .bind (fun _ => .of_standing rfl) fun sink => putLine_spares console sink _
  refine .bind hclaim fun first => .ite ?_ ?_
  · exact .bind (setUp_spares console mode) fun _ => .bind hpublish fun _ => .pure _
  · refine .bind (.bind hignore fun _ => ?_) fun _ => .pure _
    exact .bind .get fun _ => .ite (.pure _) (.throw _)

theorem System.installDiagnostics_spares :
    Exec.Leads (installDiagnostics (σ := σ)) (Spares t p) := by
  have hfrom (l : List (TrapType × DiagnosticHandler × String)) :
      Exec.Leads (installDiagnosticsFrom (σ := σ) l) (Spares t p) := by
    induction l with
    | nil => exact .pure 0
    | cons d l ih => exact .bind (register_spares _ _) fun _ => .bind ih fun _ => .pure _
  exact .bind (hfrom _) fun _ => .bind (Spares.of_keeps console_keeps) fun _ =>
    .bind (putLine_spares console _ _) fun _ => .pure _

end

omit [Client σ] in
theorem Api.whenReady_spares {x : Exec σ α} (a : α) (hx : Exec.Leads x (Spares t p)) :
    Exec.Leads (whenReady a x) (Spares t p) :=
  .bind (.bind .get fun _ => .pure _) fun _ => .ite hx (.pure a)

omit [Client σ] in
theorem Api.enableInterrupt_spares (i : Interrupt) :
    Exec.Leads (enableInterrupt (σ := σ) i) (Spares t p) :=
  Api.whenReady_spares _ (.bind .get fun _ => .ite (fun _ => .of_standing rfl) (.pure _))

omit [Client σ] in
theorem armTimer_spares : Exec.Leads (armTimer (σ := σ)) (Spares t p) :=
  .bind (fun _ => .of_standing rfl) fun _ _ => .of_standing rfl

section

variable (console : ∀ text, Exec.Leads (Client.written (σ := σ) text) (Spares t p))

include console

theorem Api.start_spares (mode : TrapMode) : Exec.Leads (start (σ := σ) mode) (Spares t p) :=
  .bind (System.start_spares console mode) fun _ =>
    .bind (.bind .get fun _ => .pure _) fun _ => .pure _

theorem Api.installDiagnostics_spares :
    Exec.Leads (installDiagnostics (σ := σ)) (Spares t p) :=
  Api.whenReady_spares _ (.bind (System.installDiagnostics_spares console) fun _ => .pure _)

theorem Api.register_spares (s : TrapType) (handler : Option TrapHandler) (priority : UInt8)
    (description : Option Text) (context : Option ContextId) :
    Exec.Leads (register (σ := σ) s handler priority description context) (Spares t p) :=
  Api.whenReady_spares _ (.bind (System.register_spares _ _) fun _ =>
    .ite (.bind (Spares.of_keeps System.console_keeps) fun _ =>
      .bind (putLine_spares console _ _) fun _ => .pure _) (.pure _))

end

end Spares

/-! ### Registrations that went well -/

theorem System.inPlace_of_register {t : TrapType} {p : Proposal} {m m' : Machine σ}
    {history : List Change} (reachable : m.system.registry = Registry.run {} history)
    (h : Exec.runOn (register t p) m = (.ok .ok, m')) : InPlace t p m'.system.registry := by
  obtain ⟨status, m₁, hlocked, hrest⟩ := Exec.of_runOn_bind_eq_ok h
  -- the event that is traced leaves the registry as the registration left it
  obtain ⟨rfl, hregistry⟩ : status = .ok ∧ m'.system.registry = m₁.system.registry := by
    split at hrest
    · rename_i hok
      obtain ⟨_, m₂, hnote, hreturn⟩ := Exec.of_runOn_bind_eq_ok hrest
      obtain rfl : m₂ = m' := congrArg Prod.snd hreturn
      exact ⟨hok, (note_keeps_registry _ _ _).of_runOn hnote⟩
    · rename_i hrefused
      exact absurd (Except.ok.inj (congrArg Prod.fst hrest)) hrefused
  rw [hregistry]
  obtain ⟨platform, ⟨-, hrun⟩ | ⟨-, r, hr, hrun⟩⟩ :=
    runOn_locked_change (fun r => r.add t p) RegistryStatus.locked m
  · have heq := hlocked.symm.trans hrun
    obtain rfl : m₁ = _ := congrArg Prod.snd heq
    exact .of_add reachable (Except.ok.inj (congrArg Prod.fst heq)).symm
  · have heq := congrArg Prod.fst (hlocked.symm.trans hrun)
    rcases hr with rfl | rfl <;> cases heq

/-- A start that went well has made the system ready. -/
theorem Api.ready_of_start [Client σ] {mode : TrapMode} {m m' : Machine σ}
    (h : Exec.runOn (start mode) m = (.ok .ok, m')) : m'.system.ready = true := by
  obtain ⟨_, m₁, -, hready⟩ := Exec.of_runOn_bind_eq_ok h
  have hasked : Exec.runOn isReady m₁ = (.ok m₁.system.ready, m₁) := rfl
  rw [Exec.runOn_bind_of_ok hasked] at hready
  obtain rfl : m₁ = m' := congrArg Prod.snd hready
  cases hm : m₁.system.ready with
  | true => rfl
  | false =>
    rw [hm] at hready
    cases congrArg Prod.fst hready

theorem Api.inPlace_of_register [Client σ] {t : TrapType} {handler : Option TrapHandler}
    {priority : UInt8} {description : Option Text} {context : Option ContextId} {m m' : Machine σ}
    {history : List Change} (reachable : m.system.registry = Registry.run {} history)
    (h : Exec.runOn (register t handler priority description context) m = (.ok .ok, m')) :
    InPlace t ⟨handler, description, ⟨priority, .system, kernelRegistrar, context⟩⟩
      m'.system.registry := by
  cases hready : m.system.ready with
  | false =>
    have heq := h.symm.trans (whenReady_of_not_ready hready _ _)
    cases congrArg Prod.fst heq
  | true =>
    rw [register, whenReady_of_ready hready] at h
    obtain ⟨status, m₁, hregister, hrest⟩ := Exec.of_runOn_bind_eq_ok h
    have hok : status = .ok ∧ m₁ = m' := by
      split at hrest
      · rename_i hrefused
        obtain ⟨sink, m₂, hsink, hrest⟩ := Exec.of_runOn_bind_eq_ok hrest
        obtain ⟨_, m₃, -, hreturn⟩ := Exec.of_runOn_bind_eq_ok hrest
        have hstatus : ApiStatus.ofRegistry status = .ok :=
          Except.ok.inj (congrArg Prod.fst hreturn)
        cases status <;> first | exact absurd rfl hrefused | cases hstatus
      · rename_i hok
        exact ⟨Classical.not_not.1 hok, congrArg Prod.snd hrest⟩
    obtain ⟨rfl, rfl⟩ := hok
    exact System.inPlace_of_register reachable hregister

/-! ### The boot -/

/-- A step that is made on a condition, and what comes after it. -/
theorem Exec.of_runOn_when {c : Prop} [Decidable c] {x : Exec σ Unit} {f : Unit → Exec σ α}
    {m m' : Machine σ} {a : α}
    (h : Exec.runOn (if c then x >>= f else f ()) m = (.ok a, m')) :
    ∃ m₁, (m₁ = m ∨ Exec.runOn x m = (.ok (), m₁)) ∧ Exec.runOn (f ()) m₁ = (.ok a, m') := by
  split at h
  · obtain ⟨_, m₁, hx, hrest⟩ := Exec.of_runOn_bind_eq_ok h
    exact ⟨m₁, .inr hx, hrest⟩
  · exact ⟨m, .inl rfl, h⟩

/-- What comes after a step that stops on a condition is reached only without it. -/
theorem Exec.of_runOn_unless_stops {c : Prop} [Decidable c] {x : Exec σ Unit}
    {f : Unit → Exec σ α} {m m' : Machine σ} {a : α} (hx : Exec.Stops x)
    (h : Exec.runOn (if c then x >>= f else f ()) m = (.ok a, m')) :
    ¬c ∧ Exec.runOn (f ()) m = (.ok a, m') := by
  split at h
  · exact absurd h (hx.of_first f m a m')
  · exact ⟨‹_›, h⟩

/-- The request for the periodic tick. -/
def tickProposal : Proposal := ⟨some .periodicTick, some "Periodic Tick", { priority := 50 }⟩

/-- The entry of the periodic tick. -/
def tickEntry : Entry := ⟨.periodicTick, "Periodic Tick", { priority := 50 }⟩

theorem Contexts.create_keeps_standing (name : Text) :
    Exec.Keeps (create (σ := σ) Machine.thePool name) Machine.standing := by
  refine .bind (System.currentHart_keeps fun _ => rfl) fun core =>
    .withLock (fun _ _ => rfl) (.bind (.read _) fun pool => ?_) (.pure _) core
  cases pool.vacant with
  | none => exact .pure _
  | some i =>
    exact .bind (fun _ => rfl) fun _ => .bind (.change (fun _ _ => rfl) _) fun _ => .pure _

section

variable [Client σ]
  (console : ∀ text,
    Exec.Leads (Client.written (σ := σ) text) (Spares .timerInterrupt tickProposal))

include console

/-- **A boot that comes to its first prompt leaves the system ready and the tick in place.** -/
theorem boot_puts_tick_in_place {hart : UInt64} {m m' : Machine σ} {history : List Change}
    (reachable : m.system.registry = Registry.run {} history)
    (booted : Exec.runOn (boot hart) m = (.ok (), m')) :
    m'.system.ready = true ∧ InPlace .timerInterrupt tickProposal m'.system.registry := by
  -- the boot stage by stage, up to the registration of the tick
  obtain ⟨_, m₁, hgreeting, hrest⟩ := Exec.of_runOn_bind_eq_ok booted
  obtain ⟨_, m₂, hplatform, hrest⟩ := Exec.of_runOn_bind_eq_ok hrest
  obtain ⟨sink, m₃, hsink, hrest⟩ := Exec.of_runOn_bind_eq_ok hrest
  obtain ⟨_, m₄, hbooting, hrest⟩ := Exec.of_runOn_bind_eq_ok hrest
  obtain ⟨started, m₅, hstart, hrest⟩ := Exec.of_runOn_bind_eq_ok hrest
  obtain ⟨hstarted, hrest⟩ := Exec.of_runOn_unless_stops (panic_stops _) hrest
  obtain ⟨diagnosed, m₆, hdiagnosed, hrest⟩ := Exec.of_runOn_bind_eq_ok hrest
  obtain ⟨m₇, hrefused, hrest⟩ := Exec.of_runOn_when hrest
  obtain ⟨ticking, m₈, hregister, hrest⟩ := Exec.of_runOn_bind_eq_ok hrest
  obtain ⟨hticking, hrest⟩ := Exec.of_runOn_unless_stops (panic_stops _) hrest
  obtain rfl : started = .ok := Classical.not_not.1 hstarted
  obtain rfl : ticking = .ok := Classical.not_not.1 hticking
  have hgreeted : Spares .timerInterrupt tickProposal m m₁ :=
    Exec.Leads.of_runOn (fun _ => .of_standing rfl) hgreeting
  have hbrought : Spares .timerInterrupt tickProposal m₁ m₂ :=
    Exec.Leads.of_runOn (fun _ => .of_standing rfl) hplatform
  have hfound : Spares .timerInterrupt tickProposal m₂ m₃ :=
    Exec.Leads.of_runOn (fun _ => .of_standing rfl) hsink
  have hsaid := (putLine_spares console _ _).of_runOn hbooting
  have hbegun := (Api.start_spares console _).of_runOn hstart
  have hinstalled := (Api.installDiagnostics_spares console).of_runOn hdiagnosed
  have htold : Spares .timerInterrupt tickProposal m₆ m₇ := by
    rcases hrefused with rfl | hline
    · exact refl_of _ _
    · exact (putLine_spares console _ _).of_runOn hline
  have hbefore := trans_of (Spares .timerInterrupt tickProposal) hgreeted <| trans_of _ hbrought <|
    trans_of _ hfound <| trans_of _ hsaid <| trans_of _ hbegun <| trans_of _ hinstalled htold
  obtain ⟨before, hreach⟩ := hbefore.reachable reachable
  have hticks : InPlace .timerInterrupt tickProposal m₈.system.registry :=
    Api.inPlace_of_register hreach hregister
  have hregistered := (Api.register_spares console _ _ _ _ _).of_runOn hregister
  -- what is left of the boot, whether or not there is room for the context of the console
  have hlast : Spares .timerInterrupt tickProposal m₈ m' := by
    refine Exec.Leads.of_runOn ?_ hrest
    refine .bind (fun _ => .of_standing rfl) fun _ => .bind (fun _ => .of_standing rfl) fun _ =>
      .bind (Spares.of_keeps (Contexts.create_keeps_standing _)) fun created => ?_
    have hline (i : Interrupt) (status : ApiStatus) := putLine_spares console sink
      ["[ERROR] Enable interrupt ", Numeral.decimal i.code.toNat, ": ", status.name, "\n"]
    cases created
    case' error e => refine .bind (putLine_spares console _ _) fun _ => ?_
    all_goals
      refine .bind armTimer_spares fun _ => .bind (.forM fun i _ => ?_) fun _ => ?_
      · exact .bind (Api.enableInterrupt_spares i) fun status => .ite (hline i status) (.pure ())
      · exact .bind (Api.whenReady_spares _ fun _ => .of_standing rfl) fun _ =>
          puts_leads (fun _ _ => .of_standing rfl) console _ _
  have hready : m₈.system.ready = true :=
    hregistered.ready (htold.ready (hinstalled.ready (Api.ready_of_start hstart)))
  exact ⟨hlast.ready hready, hlast.inPlace hticks⟩

end

end Supervisor
