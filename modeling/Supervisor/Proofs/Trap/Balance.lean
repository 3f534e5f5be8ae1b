/-
Traps and guarded sections keep the balance of the frame slots.

A trap that returns has given back the slot that it claimed, and so has a guarded section, however
it ends.  They may stand inside one another to any depth, on any harts.

* `begun_claims`, `ended_of_held` — the beginning and the end of a trap;
* `GivesUp` — what becomes of a trap that cannot be taken;
* `guarded_of_granted`, `guarded_of_refused` — what becomes of a guarded section;
* `Entry.KeepsTo` — a handler that returns and ends the scopes that it begins;
* `traps_keep_balance` — the whole of it.

Design notes: a handler or a section is taken as it runs.  It may do anything whose effect on the
nestings is that of scopes which it ends itself, traps among them.
-/
import Supervisor.Proofs.Trap.Slots
import Supervisor.Proofs.Trap.Snapshot

namespace Supervisor

open Relation (ReflTransGen)
open Nesting (bankOf)
open Machine (slots nestings)

variable {σ α ι : Type}

section

variable [DecidableEq ι] {spare : ι → Part σ Nesting} {m start : Machine σ}
  {claims : List (Claim (Option ι))}

/-! ### The beginning and the end of a trap -/

section

variable (apart : ∀ i j, i ≠ j → (spare i).Apart (spare j))

include apart

variable (claims) in
/-- Below the limit a trap begins with a claim that keeps its frame. -/
theorem begun_claims [Client σ]
    (quiet : ∀ text, Exec.Leads (Client.written (σ := σ) text) (Rejoins spare)) {f : Frame}
    {m₁ : Machine σ} (room : m.level < m.system.nesting.limit)
    (announced : Announced f (m.begun f) m₁) :
    ReflTransGen Scopes.Step ⟨claims, m.nestings spare⟩
      ⟨⟨none, m.hart, m.system.nesting.depth (bankOf m.hart), some f⟩ :: claims,
        m₁.nestings spare⟩ := by
  -- what is noted and announced has no part in the slots
  have hrest : Rejoins spare (m.entered f) m₁ :=
    trans_of (Rejoins spare) ((note_rejoins _ _ _).of_runOn (System.runOn_note _ _ _ _))
      ((announceTrap_rejoins quiet _ _ _).of_runOn (runOn_announceTrap announced))
  exact (ReflTransGen.single (entered_step claims apart f room)).trans (hrest _)

/-- A trap whose claim is the newest one ends by giving it back. -/
theorem ended_of_held [Fintype ι] {core : UInt32} {position : Nat} {f : Option Frame}
    (h : Underway spare start (⟨none, core, position, f⟩ :: claims) m)
    (reachable : (start.nestings spare).Sound) (t : TrapType) (handled : Bool) :
    (m.ended core t handled).1 = .ok () ∧
      ReflTransGen Scopes.Step ⟨⟨none, core, position, f⟩ :: claims, m.nestings spare⟩
        ⟨claims, (m.ended core t handled).2.nestings spare⟩ := by
  have haccounted := (Scopes.Accounted.refl reachable).run h
  obtain ⟨hok, -⟩ := haccounted.giveBack
  obtain ⟨level, n, hleave, hback⟩ := leave_of_giveBack apart hok
  set noted := m.noted Machine.theTrace .trapExit t.name (if handled then 1 else 0)
  have hended : m.ended core t handled =
      (.ok (), { noted with level, system.nesting := n }) := by
    rw [Machine.ended, hleave]
  -- the slots are the same before and after the end is noted
  have hclients : Machine.theClients.get noted = Machine.theClients.get m :=
    Machine.view_noted (fun _ => rfl) (fun _ _ => rfl) _ _ _ m
  have hleft : ({ noted with level, system.nesting := n } : Machine σ).nestings spare =
      ({ m with level, system.nesting := n } : Machine σ).nestings spare :=
    nestings_congr rfl rfl hclients
  rw [hended, hleft, hback]
  exact ⟨rfl, .single (.giveBack _ _ _)⟩

end

end

/-! ### Traps that cannot be taken -/

/-- Whatever the handlers are, a trap gives up with a message and does nothing else.  The message
goes to the console of platform `p`, and the rest of the machine stays as it is. -/
def GivesUp (m : Machine σ) (f : Option Frame) (text : Text) (p : Platform) : Prop :=
  ∀ client : Client σ, (@takeTrapOf σ client f).run m =
    ((.error (.panic (some text)), f.getD {}), Machine.thePlatform.set (p.gaveUp text) m)

theorem givesUp_of_early {m : Machine σ} (early : m.system.ready = false) (f : Frame) :
    GivesUp m (some f) "trap taken before trap system initialization" m.platform := by
  intro client
  have hcheck : TrapExec.runOn (getThe (Machine σ) : TrapExec σ (Machine σ)) f m =
      ((.ok m, f), m) := rfl
  show TrapExec.runOn takeTrap f m = _
  rw [takeTrap, TrapExec.runOn_bind_of_ok hcheck, early, if_neg Bool.false_ne_true,
    TrapExec.runOn_bind, TrapExec.runOn_onMachine, runOn_panic]
  rfl

/-- At the limit a trap gives up, once the number of the hart was asked for. -/
theorem takeTrap_at_limit [Client σ] {m : Machine σ} (ready : m.system.ready = true) (f : Frame)
    (h : m.system.nesting.limit ≤ m.level) :
    TrapExec.runOn takeTrap f m = ((.error (.panic (some "trap nesting overflow")), f),
      Machine.thePlatform.set (m.asked.platform.gaveUp "trap nesting overflow") m.asked) := by
  rw [takeTrap_of_ready ready, TrapExec.runOn_bind, TrapExec.runOn_onMachine,
    openTrap_at_limit f h]

theorem givesUp_at_limit {m : Machine σ} (ready : m.system.ready = true) (f : Frame)
    (h : m.system.nesting.limit ≤ m.level) :
    GivesUp m (some f) "trap nesting overflow" m.asked.platform := by
  intro client
  obtain ⟨hart, next, hasked⟩ := m.asked_eq
  show TrapExec.runOn takeTrap f m = _
  rw [takeTrap_at_limit ready f h, hasked]
  rfl

section

variable [DecidableEq ι] {spare : ι → Part σ Nesting} {m m₁ m₂ : Machine σ} {start : Machine σ}
  {claims : List (Claim (Option ι))}

/-! ### Guarded sections -/

/-- A section whose request is granted runs with its slot, and then the slot is given back, however
the section ended. -/
theorem guarded_of_granted {part : Part (Machine σ) Nesting} {core : UInt32} {slot : Slot}
    (h : Exec.runOn (claimSlot part core) m = (.ok (.ok, some slot), m₁))
    (body : ContextStatus → Option Slot → Exec σ α) :
    Exec.runOn (guarded part core body) m =
      ((Exec.runOn (body .ok (some slot)) m₁).1,
        ((Exec.runOn (body .ok (some slot)) m₁).2.withSlotBack part core).2) := by
  rw [guarded, Exec.runOn_bind_of_ok h]
  rfl

/-- A section whose request is refused runs all the same, and nothing is given back. -/
theorem guarded_of_refused {part : Part (Machine σ) Nesting} {core : UInt32}
    (h : Exec.runOn (claimSlot part core) m = (.ok (.overflow, none), m₁))
    (body : ContextStatus → Option Slot → Exec σ α) :
    Exec.runOn (guarded part core body) m = Exec.runOn (body .overflow none) m₁ := by
  rw [guarded, Exec.runOn_bind_of_ok h]
  rfl

variable [client : Client σ]

/-! ### The handlers of a trap -/

/-- The handler of an entry returns, and ends the scopes that it begins. -/
structure Entry.KeepsTo (spare : ι → Part σ Nesting) (claims : List (Claim (Option ι))) (e : Entry)
    (s : TrapState σ) : Prop where
  returns : e.ReturnsIn s
  composed : Composed spare claims s.2 (TrapExec.runOn e.handler.run s.1 s.2).2

/-- The report of a failure adds nothing to what the handler did to the slots. -/
theorem Entry.KeepsTo.composed_of_answers
    (quiet : ∀ text, Exec.Leads (Client.written (σ := σ) text) (Rejoins spare)) {e : Entry}
    {s s' : TrapState σ} {t : TrapType} {sink : Sink} {v : Verdict} (h : e.KeepsTo spare claims s)
    (hanswers : e.Answers t sink s v s') : Composed spare claims s.2 s'.2 := by
  obtain ⟨m, hrun, hafter⟩ := hanswers
  have hcomposed := h.composed
  rw [hrun] at hcomposed
  cases v with
  | handled =>
    rw [hafter]
    exact hcomposed
  | pass =>
    rw [hafter]
    exact hcomposed
  | failed error =>
    have hreport : Rejoins spare m s'.2 := (putLine_rejoins quiet _ _).of_runOn hafter
    exact hcomposed.trans (hreport claims)

/-- A trap that was begun is ended and its claim given back, if its handlers return and each ends
the scopes that it begins. -/
theorem serveTrap_of_keepsTo [Fintype ι] (apart : ∀ i j, i ≠ j → (spare i).Apart (spare j))
    (console : ConsoleReturns σ)
    (quiet : ∀ text, Exec.Leads (Client.written (σ := σ) text) (Rejoins spare))
    (reachable : (start.nestings spare).Sound) {core : UInt32} {position : Nat}
    {kept : Option Frame} {t : TrapType} {sink : Sink} {entries : List Entry} {f : Frame} :
    let inside := ⟨none, core, position, kept⟩ :: claims
    Underway spare start inside m₁ →
    Exec.runOn (entriesFor t sink) m₁ = (.ok entries, m₂) →
    Throughout (Entry.Answers t sink) Verdict.Claims (Entry.KeepsTo spare inside) entries (f, m₂) →
    Throughout (Entry.Answers t sink) Verdict.Claims (fun _ s => Underway spare start inside s.2)
        entries (f, m₂) ∧
      ∃ (f' : Frame) (last : Machine σ) (handled : Bool),
        let ended := last.ended core t handled
        ended.1 = .ok () ∧
        TrapExec.runOn (serveTrap core t sink) f m₁ = ((.ok (), f'), ended.2) ∧
        ReflTransGen Scopes.Step ⟨inside, m₁.nestings spare⟩ ⟨claims, ended.2.nestings spare⟩ := by
  intro inside hunderway hentries hkeeps
  have hsnapshot : Composed spare inside m₁ m₂ :=
    (entriesFor_rejoins quiet t sink).of_runOn hentries inside
  -- whatever the calls so far have done since the snapshot is a composition inside of the trap
  have hstep {e : Entry} {s : TrapState σ} {v : Verdict} {s' : TrapState σ}
      (hkeeps : e.KeepsTo spare inside s) (hcall : e.Answers t sink s v s')
      (h : Composed spare inside m₂ s.2) : Composed spare inside m₂ s'.2 :=
    h.trans (hkeeps.composed_of_answers quiet hcall)
  have hstart : Composed spare inside m₂ (f, m₂).2 := ReflTransGen.refl
  refine ⟨(hkeeps.preserves hstep hstart).mono fun _ s h => (hunderway.trans hsnapshot).trans h, ?_⟩
  obtain ⟨calls, last, final, hlinked, hupTo, hclaimed, hunclaimed, hserve⟩ :=
    serveTrap_of_returning console core hentries (hkeeps.mono fun _ _ h => h.returns)
  have hlast : Composed spare inside m₂ last.2 :=
    hupTo.preserves (I := fun s => Composed spare inside m₂ s.2) hlinked hkeeps hstep hstart
  have hfinal : Composed spare inside m₂ final.2 := by
    by_cases hany : ∃ c ∈ calls, c.answer.Claims
    · rw [hclaimed hany]
      exact hlast
    · obtain ⟨hfallback, -⟩ := hunclaimed fun c hc h => hany ⟨c, hc, h⟩
      have hrejoins : Rejoins spare last.2 final.2 := by
        have := fallback_rejoins quiet t last.1 last.2
        rwa [hfallback] at this
      exact hlast.trans (hrejoins inside)
  obtain ⟨hended, hback⟩ := ended_of_held apart
    ((hunderway.trans hsnapshot).trans hfinal) reachable t (verdictOf calls).isHandled
  refine ⟨final.1, final.2, (verdictOf calls).isHandled, hended, ?_,
    (hsnapshot.trans hfinal).trans hback⟩
  rw [hserve, TrapExec.runOn_onMachine, runOn_closeTrap, hended]

/-- **Traps keep the balance of the frame slots.**  Let the start be any state that requests for
slots can reach, and let some claims be open since then, each made inside of the one before.

What is begun and ended after that leaves the count and all depths as they are.  Every trap among
the claims still finds, in the slot that it was given, its frame as it was at its beginning.  The
newest claim can be given back.

A trap without a frame, before the system is ready or at the limit gives up.  Whatever the handlers
are, it runs none of them: it writes its message to the console, at the limit once the number of the
hart was asked for, and leaves the frame and everything else on the machine alone.

Any other trap begins with a claim of its own, runs no handler before that is noted and announced,
and ends by giving the claim back.  As long as each handler returns when its turn comes and ends the
scopes that it begins, the trap returns, and it has been a composition itself.  The handlers may
take traps and open sections in turn, for the same holds of the machine when their turn comes.
Another hart may hold the lock of the registry at first, if it keeps to its scopes.

A section begins with a claim of its own as well, gives that back however it ends, and is a
composition if its body is one.  A section whose request is refused is its body. -/
theorem traps_keep_balance [Fintype ι] (apart : ∀ i j, i ≠ j → (spare i).Apart (spare j))
    (console : ConsoleReturns σ)
    (quiet : ∀ text, Exec.Leads (Client.written (σ := σ) text) (Rejoins spare))
    (reachable : ∃ acts, start.nestings spare = Nestings.run {} acts)
    (underway : Underway spare start claims m) :
    (∀ m', Composed spare claims m m' → m'.level = m.level ∧
      ∀ i, ((slots spare i).get m').depth = ((slots spare i).get m).depth) ∧
    (∀ c ∈ claims, ∀ f, c.frame = some f →
      ((slots spare c.party).get m).frame? (c.position + 1) c.core = some f) ∧
    (∀ c older, claims = c :: older →
      let given := Exec.runOn (giveBackSlot (slots spare c.party) c.core) m
      given.1 = .ok .ok ∧ Underway spare start older given.2) ∧
    (GivesUp m none "handle_trap called with a null trap frame" m.platform ∧
      ∀ f,
        (m.system.ready = false →
          GivesUp m (some f) "trap taken before trap system initialization" m.platform) ∧
        (m.system.ready = true → m.system.nesting.limit ≤ m.level →
          GivesUp m (some f) "trap nesting overflow" m.asked.platform)) ∧
    (∀ f, m.system.ready = true → m.level < m.system.nesting.limit →
      let t := f.trapType
      let inside := ⟨none, m.hart, m.system.nesting.depth (bankOf m.hart), some f⟩ :: claims
      ∃ m₁,
        Announced f (m.begun f) m₁ ∧
        (∀ other : Client σ, other.written = client.written →
          Exec.runOn (@openTrap σ other f) m = (.ok (m.hart, m.sink), m₁)) ∧
        TrapExec.runOn takeTrap f m = TrapExec.runOn (serveTrap m.hart t m.sink) f m₁ ∧
        Underway spare start inside m₁ ∧
        ∀ m₂ m₃ entries, Composed spare inside m₁ m₂ →
          Exec.runOn (entriesFor t m.sink) m₂ = (.ok entries, m₃) →
          Throughout (Entry.Answers t m.sink) Verdict.Claims (Entry.KeepsTo spare inside) entries
            (f, m₃) →
          Throughout (Entry.Answers t m.sink) Verdict.Claims
              (fun _ s => Underway spare start inside s.2) entries (f, m₃) ∧
            ∃ (f' : Frame) (last : Machine σ) (handled : Bool),
              let ended := last.ended m.hart t handled
              ended.1 = .ok () ∧
              TrapExec.runOn (serveTrap m.hart t m.sink) f m₂ = ((.ok (), f'), ended.2) ∧
              Composed spare claims m ended.2) ∧
    ∀ i core m₁,
      (∀ slot, Exec.runOn (claimSlot (slots spare i) core) m = (.ok (.ok, some slot), m₁) →
        let inside := ⟨i, core, slot.position, none⟩ :: claims
        Underway spare start inside m₁ ∧
        ∀ (α : Type) (body : ContextStatus → Option Slot → Exec σ α),
          let ended := Exec.runOn (body .ok (some slot)) m₁
          Composed spare inside m₁ ended.2 →
          ∃ m', Exec.runOn (guarded (slots spare i) core body) m = (ended.1, m') ∧
            Composed spare claims m m') ∧
      (Exec.runOn (claimSlot (slots spare i) core) m = (.ok (.overflow, none), m₁) →
        ∀ (α : Type) (body : ContextStatus → Option Slot → Exec σ α),
          Exec.runOn (guarded (slots spare i) core body) m =
            Exec.runOn (body .overflow none) m₁ ∧
          Composed spare claims m m₁) := by
  obtain ⟨acts, hacts⟩ := reachable
  have hstart : (start.nestings spare).Sound := by
    rw [hacts]
    exact Nestings.sound_empty.run acts
  have haccounted := (Scopes.Accounted.refl hstart).run underway
  refine ⟨fun m' hcomposed => ?_, fun c hc f hf => haccounted.frame?_of_trap hc hf, ?_,
    ⟨fun _ => rfl, fun f => ⟨fun early => givesUp_of_early early f,
      fun ready full => givesUp_at_limit ready f full⟩⟩,
    fun f ready room => ?_, fun i core m₁ => ⟨?_, ?_⟩⟩
  · have hafter := (Scopes.Accounted.refl hstart).run (underway.trans hcomposed)
    refine ⟨hafter.level.trans haccounted.level.symm, fun i => ?_⟩
    funext b
    exact (hafter.depth i b).trans (haccounted.depth i b).symm
  · rintro c older rfl
    obtain ⟨hok, -⟩ := haccounted.giveBack
    have hstep := Scopes.Step.giveBack c older (m.nestings spare)
    rw [giveBack_eq apart] at hok hstep
    exact ⟨congrArg Except.ok hok, underway.tail hstep⟩
  · obtain ⟨m₁, announced⟩ := exists_announced console f (m.begun f)
    have hclaim := begun_claims claims apart quiet room announced
    refine ⟨m₁, announced, openTrap_of_announced room announced,
      takeTrap_of_announced ready room announced, underway.trans hclaim, ?_⟩
    intro m₂ m₃ entries hwaited hentries hkeeps
    obtain ⟨hturns, f', last, handled, hended, hserve, hback⟩ := serveTrap_of_keepsTo apart console
      quiet hstart ((underway.trans hclaim).trans hwaited) hentries hkeeps
    exact ⟨hturns, f', last, handled, hended, hserve, (hclaim.trans hwaited).trans hback⟩
  · intro slot hgranted inside
    have hclaim : Scopes.Step ⟨claims, m.nestings spare⟩ ⟨inside, m₁.nestings spare⟩ :=
      .claim (claim_of_claimSlot apart hgranted)
    refine ⟨underway.tail hclaim, ?_⟩
    intro α body ended hbody
    refine ⟨_, guarded_of_granted hgranted body, (ReflTransGen.head hclaim hbody).tail ?_⟩
    have hstep :=
      Scopes.Step.giveBack ⟨i, core, slot.position, none⟩ claims (ended.2.nestings spare)
    rwa [giveBack_eq apart] at hstep
  · intro hrefused α body
    have hsame := Nestings.eq_of_refused (claim_of_claimSlot apart hrefused)
    exact ⟨guarded_of_refused hrefused body, Rejoins.of_eq hsame claims⟩

end

/-- A client with frame slots of its own.  Its handlers claim one of them for a hart whose bank is
that of another one, fail while they hold it, and then rewrite the frame of the trap. -/
structure Hoarder where
  own : Nesting := {}

/-- The slots of this client. -/
def Hoarder.spare (_ : Unit) : Part Hoarder Nesting where
  get := (·.own)
  set a s := { s with own := a }

/-- What the handlers do under their own slot. -/
def Hoarder.section : Exec Hoarder Unit :=
  guarded (slots spare (some ())) 4 fun _ _ => throw .idle

instance : Client Hoarder where
  trapHandler _ := do
    onMachine (tryCatch Hoarder.section fun _ => return)
    modifyThe Frame fun f => { f with sepc := 0 }
    return .handled
  errorHandler _ _ := return .unhandled
  command _ _ _ := return 0
  written _ := return

/-- A machine that is ready, with one handler of breakpoints. -/
def Hoarder.machine : Machine Hoarder where
  system.ready := true
  system.registry := (Registry.add {} .breakpoint ⟨some (.client 0), some [1], {}⟩).2
  clients := {}

/-- The frame of a breakpoint. -/
def Hoarder.frame : Frame where
  scause := 3
  sepc := 16

/-- The handler leaves its section by a failure and rewrites the frame.  The slots are given back
all the same, and while the handler runs the frame of the trap is in its slot as it was. -/
theorem hoarded_slots_are_given_back :
    (TrapExec.runOn takeTrap Hoarder.frame Hoarder.machine).1 =
      (.ok (), { Hoarder.frame with sepc := 0 }) ∧
    Composed Hoarder.spare [] Hoarder.machine
      (TrapExec.runOn takeTrap Hoarder.frame Hoarder.machine).2 ∧
    ∃ claims m, Underway Hoarder.spare Hoarder.machine claims m ∧
      m.system.nesting.frame? 1 0 = some Hoarder.frame := by
  refine ⟨by rfl, ?_⟩
  have apart : ∀ i j : Unit, i ≠ j → (Hoarder.spare i).Apart (Hoarder.spare j) :=
    fun _ _ h => absurd rfl h
  have console : ConsoleReturns Hoarder := fun _ m => ⟨(), m, rfl⟩
  have quiet : ∀ text, Exec.Leads (Client.written (σ := Hoarder) text) (Rejoins Hoarder.spare) :=
    fun _ _ => .of_eq rfl
  have reachable : ∃ acts, Hoarder.machine.nestings Hoarder.spare = Nestings.run {} acts := by
    refine ⟨[], ?_⟩
    have hslots : (fun i => (slots Hoarder.spare i).get Hoarder.machine) = fun _ => {} := by
      funext i
      cases i <;> rfl
    rw [nestings, hslots]
    rfl
  obtain ⟨-, -, -, -, htrap, -⟩ :=
    traps_keep_balance (m := Hoarder.machine) apart console quiet reachable .refl
  obtain ⟨m₁, -, hopen, htake, hinside, hserve⟩ := htrap Hoarder.frame rfl (by decide)
  -- the trap begins on hart zero, without a console
  set opened := (Exec.runOn (openTrap Hoarder.frame) Hoarder.machine).2
  obtain rfl : opened = m₁ := congrArg Prod.snd (hopen inferInstance rfl)
  set taken := (Exec.runOn (entriesFor .breakpoint .nowhere) opened).2
  have hentries : Exec.runOn (entriesFor .breakpoint .nowhere) opened =
      (.ok [⟨.client 0, [1], {}⟩], taken) := by rfl
  have htaken : Underway Hoarder.spare Hoarder.machine
      [⟨none, 0, 0, some Hoarder.frame⟩] taken :=
    hinside.trans ((entriesFor_rejoins quiet _ _).of_runOn hentries _)
  obtain ⟨-, hframes, -, -, -, hguard⟩ :=
    traps_keep_balance (m := taken) apart console quiet reachable htaken
  have hsection : Composed Hoarder.spare [⟨none, 0, 0, some Hoarder.frame⟩] taken
      (Exec.runOn Hoarder.section taken).2 := by
    obtain ⟨hgranted, -⟩ := hguard (some ()) 4 _
    obtain ⟨-, hbody⟩ := hgranted ⟨bankOf 4, 0⟩ (by rfl)
    obtain ⟨m', hrun, hcomposed⟩ := hbody Unit (fun _ _ => throw .idle) .refl
    rw [Hoarder.section, hrun]
    exact hcomposed
  have hkeeps : Throughout (Entry.Answers .breakpoint .nowhere) Verdict.Claims
      (Entry.KeepsTo Hoarder.spare [⟨none, 0, 0, some Hoarder.frame⟩]) [⟨.client 0, [1], {}⟩]
      (Hoarder.frame, taken) := by
    intro calls s e rest hlinked _ heq
    cases calls with
    | nil =>
      cases hlinked
      obtain ⟨rfl, -⟩ := List.cons.inj heq
      exact ⟨⟨.handled, _, _, rfl⟩, hsection⟩
    | cons c calls => simp at heq
  obtain ⟨-, f', last, handled, -, hrun, hcomposed⟩ :=
    hserve opened taken _ .refl hentries hkeeps
  have hreturned := htake.trans hrun
  refine ⟨?_, _, taken, htaken, hframes _ List.mem_cons_self _ rfl⟩
  rw [hreturned]
  exact hcomposed

end Supervisor
