/-
The periodic tick.

Once the kernel has booted, a timer trap that gets at the registry comes to the periodic tick,
unless a handler before it claims the trap.  The tick counts, and sets the timer anew.  A timer
trap on a hart that holds the lock of the registry itself is not offered to anybody.

* `Ticks` — what the tick does when its turn comes;
* `takeTrap_eq_ok`, `serveTrap_eq_ok` — a trap that returned went through all of its parts;
* `serveTrap_ticks` — a timer trap that finds the lock free;
* `serveTrap_of_held` — a timer trap that does not get the lock;
* `timer_traps_tick` — both of them, for every trap since the boot;
* `timer_stops_while_handlers_are_printed` — what becomes of the tick in the second case.

Design notes: who observes the console may interrupt what is being printed and may take traps then.
This is how a trap comes upon a hart that holds the lock.
-/
import Supervisor.Proofs.Boot
import Supervisor.Proofs.Trap.Snapshot

namespace Supervisor

open Registry

variable {σ : Type} [Client σ]

/-! ### The end of a trap -/

/-- A trap that returned has begun, and has been served. -/
theorem takeTrap_eq_ok {f f' : Frame} {m m' : Machine σ} (ready : m.system.ready = true)
    (h : TrapExec.runOn takeTrap f m = ((.ok (), f'), m')) :
    ∃ core sink m₁, Exec.runOn (openTrap f) m = (.ok (core, sink), m₁) ∧
      TrapExec.runOn (serveTrap core f.trapType sink) f m₁ = ((.ok (), f'), m') := by
  rw [takeTrap_of_ready ready] at h
  obtain ⟨⟨core, sink⟩, f₁, m₁, hopen, hserve⟩ := TrapExec.of_runOn_bind_eq_ok h
  obtain ⟨rfl, hopened⟩ := TrapExec.onMachine_eq_ok hopen
  exact ⟨core, sink, m₁, hopened, hserve⟩

/-- A trap that was served was offered to the entries it was given, and then to the last resort if
nobody had claimed it. -/
theorem serveTrap_eq_ok {core : UInt32} {t : TrapType} {sink : Sink} {entries : List Entry}
    {f f' : Frame} {m m₁ m' : Machine σ}
    (hentries : Exec.runOn (entriesFor t sink) m = (.ok entries, m₁))
    (h : TrapExec.runOn (serveTrap core t sink) f m = ((.ok (), f'), m')) :
    ∃ calls last final, Linked (Entry.Answers t sink) (f, m₁) calls last ∧
      UpTo Verdict.Claims entries calls ∧
      ((∃ c ∈ calls, c.answer.Claims) → final = last) ∧
      ((∀ c ∈ calls, ¬c.answer.Claims) →
        TrapExec.runOn (fallback t) last.1 last.2 = ((.ok (), final.1), final.2)) ∧
      Exec.runOn (closeTrap core t (verdictOf calls).isHandled) final.2 = (.ok (), m') := by
  have hfirst : TrapExec.runOn (onMachine (entriesFor t sink)) f m = ((.ok entries, f), m₁) := by
    rw [TrapExec.runOn_onMachine, hentries]
  rw [serveTrap, TrapExec.runOn_bind_of_ok hfirst] at h
  obtain ⟨verdict, f₂, m₂, hdispatch, hrest⟩ := TrapExec.of_runOn_bind_eq_ok h
  have hwalk : TrapExec.runOn (dispatch t sink entries) (f, m₁).1 (f, m₁).2 =
      ((.ok verdict, (f₂, m₂).1), (f₂, m₂).2) := hdispatch
  obtain ⟨calls, hlinked, hupTo, rfl⟩ := walk_of_dispatch hwalk
  refine ⟨calls, (f₂, m₂), ?_⟩
  by_cases hany : calls.any (·.answer.isHandled) = true
  · have hverdict : verdictOf calls = .handled := if_pos hany
    rw [hverdict] at hrest ⊢
    obtain ⟨-, hclose⟩ := TrapExec.onMachine_eq_ok hrest
    refine ⟨(f₂, m₂), hlinked, hupTo, fun _ => rfl, fun hno => ?_, hclose⟩
    obtain ⟨c, hc, hclaim⟩ := List.any_eq_true.1 hany
    exact absurd hclaim (hno c hc)
  · have hverdict : verdictOf calls = .failed .noHandler := if_neg hany
    rw [hverdict] at hrest ⊢
    obtain ⟨_, f₃, m₃, hfallback, hend⟩ := TrapExec.of_runOn_bind_eq_ok hrest
    obtain ⟨-, hclose⟩ := TrapExec.onMachine_eq_ok hend
    refine ⟨(f₃, m₃), hlinked, hupTo, fun hsome => ?_, fun _ => hfallback, hclose⟩
    exact absurd (List.any_eq_true.2 hsome) hany

/-! ### What the tick does -/

/-- The time read from the firmware is that far from its end. -/
theorem time_add_tickInterval_ne (p : Platform) : p.time.1 + tickInterval ≠ maxWord := by
  intro h
  have hnat := congrArg UInt64.toNat h
  have hlt := p.clock.nanoseconds.toNat_lt
  simp only [Platform.time, tickInterval, maxWord, UInt64.toNat_add, UInt64.toNat_div,
    UInt64.reduceToNat] at hnat
  omega

/-- One tick was counted, and the timer was set for the next one. -/
structure Ticks (before after : Machine σ) : Prop where
  count : after.ticks = before.ticks + 1
  deadline : after.platform.deadline = before.platform.time.1 + tickInterval

omit [Client σ] in
theorem Ticks.armed {before after : Machine σ} (h : Ticks before after) :
    after.platform.deadline ≠ maxWord := h.deadline ▸ time_add_tickInterval_ne before.platform

theorem ticks_of_answers {t : TrapType} {sink : Sink} {s s' : TrapState σ} {v : Verdict}
    (h : tickEntry.Answers t sink s v s') : v = .handled ∧ s'.1 = s.1 ∧ Ticks s.2 s'.2 := by
  obtain ⟨m, hrun, hafter⟩ := h
  obtain rfl : v = .handled := (Except.ok.inj (congrArg (·.1.1) hrun)).symm
  obtain rfl : s'.2 = m := hafter
  refine ⟨rfl, (congrArg (·.1.2) hrun).symm, ?_⟩
  rw [← show _ = s'.2 from congrArg (·.2) hrun]
  exact ⟨rfl, rfl⟩

/-! ### What the rest of a trap does to the tick -/

/-- How often the tick was counted, when the timer fires, and whether the system can set it. -/
abbrev Machine.timing (m : Machine σ) : UInt64 × UInt64 × Bool :=
  (m.ticks, m.platform.deadline, m.system.bound && m.platform.interfaces.firmware)

omit [Client σ] in
theorem ticks_of_timing {m m' : Machine σ} (h : m'.timing = m.timing) : m'.ticks = m.ticks :=
  congrArg Prod.fst h

/-- Whoever observes the console leaves the tick and the timer alone. -/
def ConsoleKeepsTiming (σ : Type) [Client σ] : Prop :=
  ∀ text, Exec.Keeps (Client.written (σ := σ) text) Machine.timing

omit [Client σ] in
theorem currentHart_keeps_timing :
    Exec.Keeps (System.currentHart (σ := σ)) Machine.timing := by
  refine System.currentHart_keeps fun m => ?_
  have hhart : m.platform.hartId.2.deadline = m.platform.deadline ∧
      m.platform.hartId.2.interfaces = m.platform.interfaces := by
    rw [Platform.hartId]
    split <;> exact ⟨rfl, rfl⟩
  show (m.ticks, m.platform.hartId.2.deadline, _ && m.platform.hartId.2.interfaces.firmware) = _
  rw [hhart.1, hhart.2]
  rfl

omit [Client σ] in
theorem closeTrap_keeps_timing (core : UInt32) (t : TrapType) (handled : Bool) :
    Exec.Keeps (closeTrap (σ := σ) core t handled) Machine.timing :=
  .bind (System.note_keeps (fun _ => rfl) (fun _ _ => rfl) _ _ _) fun _ =>
    leaveTrap_keeps (fun _ _ _ => rfl) (fun _ _ => rfl) core

theorem putLine_keeps_timing (quiet : ConsoleKeepsTiming σ) (sink : Sink) (pieces : List Text) :
    Exec.Keeps (putLine (σ := σ) sink pieces) Machine.timing :=
  putLine_keeps (fun _ _ => rfl) quiet sink pieces

theorem openTrap_keeps_timing (quiet : ConsoleKeepsTiming σ) (f : Frame) :
    Exec.Keeps (openTrap (σ := σ) f) Machine.timing :=
  .bind currentHart_keeps_timing fun core =>
    .bind (enterTrap_keeps (fun _ _ _ => rfl) (fun _ _ => rfl) core f) fun _ =>
    .bind (System.note_keeps (fun _ => rfl) (fun _ _ => rfl) _ _ _) fun _ =>
    .bind System.console_keeps fun sink =>
    .bind (.bind .get fun _ => .ite (putLine_keeps_timing quiet sink _) (.pure _)) fun _ => .pure _

theorem openTrap_spares {t : TrapType} {p : Proposal}
    (console : ∀ text, Exec.Leads (Client.written (σ := σ) text) (Spares t p)) (f : Frame) :
    Exec.Leads (openTrap (σ := σ) f) (Spares t p) :=
  .bind (Spares.of_keeps (System.currentHart_keeps fun _ => rfl)) fun core =>
    .bind (Spares.of_keeps (enterTrap_keeps (fun _ _ _ => rfl) (fun _ _ => rfl) core f)) fun _ =>
    .bind (System.note_spares _ _ _) fun _ =>
    .bind (Spares.of_keeps System.console_keeps) fun sink =>
    .bind (.bind .get fun _ => .ite (putLine_spares console sink _) (.pure _)) fun _ => .pure _

/-! ### With the lock free -/

/-- A timer trap that finds the lock of the registry free comes to the tick, unless a handler
before it claims the trap. -/
theorem serveTrap_ticks {core : UInt32} {sink : Sink} {f f' : Frame} {m m' : Machine σ}
    (free : m.system.lock.flag = false)
    (ticking : tickEntry ∈ m.system.registry.entries .timerInterrupt)
    (h : TrapExec.runOn (serveTrap core .timerInterrupt sink) f m = ((.ok (), f'), m')) :
    ∃ earlier later m₁ calls turn,
      m.system.registry.entries .timerInterrupt = earlier ++ tickEntry :: later ∧
      m₁.system.registry = m.system.registry ∧ m₁.timing = m.timing ∧
      Linked (Entry.Answers .timerInterrupt sink) (f, m₁) calls turn ∧
      calls.map Call.entry <+: earlier ∧
      ((∃ c ∈ calls, c.answer.Claims) ∨
        calls.map Call.entry = earlier ∧ (∀ c ∈ calls, ¬c.answer.Claims) ∧ Ticks turn.2 m') := by
  obtain ⟨earlier, later, hlist⟩ := List.append_of_mem ticking
  obtain ⟨calls, last, final, hlinked, hupTo, hclaimed, -, hclose⟩ :=
    serveTrap_eq_ok (runOn_entriesFor_of_free .timerInterrupt sink free) h
  have htiming := currentHart_keeps_timing.of_runOn (System.runOn_currentHart m)
  have hregistry : m.asked.system.registry = m.system.registry := by rw [m.system_asked]
  set m₁ := Machine.theLock.set ⟨false, noOwner⟩ m.asked
  have hafter := (closeTrap_keeps_timing _ _ _).of_runOn hclose
  rw [hlist] at hupTo
  rcases hupTo.reaches with ⟨hbegin, hclaim⟩ | ⟨before, c, rest, rfl, hbefore, hc, hno, hlast⟩
  · exact ⟨earlier, later, m₁, calls, last, hlist, hregistry, htiming, hlinked, hbegin,
      .inl hclaim⟩
  · -- the calls before the tick, the tick itself, and nothing after it
    obtain ⟨turn, hearlier, htick⟩ := hlinked.split
    cases htick with
    | @cons e _ v s _ _ head tail =>
      obtain rfl : e = tickEntry := hc
      obtain ⟨rfl, -, hticks⟩ := ticks_of_answers head
      obtain rfl : rest = [] := hlast rfl
      cases tail
      obtain rfl := hclaimed ⟨_, List.mem_append_right _ List.mem_cons_self, rfl⟩
      refine ⟨earlier, later, m₁, before, turn, hlist, hregistry, htiming, hearlier,
        hbefore ▸ List.prefix_refl _, .inr ⟨hbefore, hno, ?_⟩⟩
      obtain ⟨hcount, hrest⟩ := Prod.mk.inj hafter
      exact ⟨hcount.trans hticks.count, (Prod.mk.inj hrest).1.trans hticks.deadline⟩

/-! ### With the lock held -/

/-- A trap that comes back although the lock of the registry was taken found it held by its own
hart, and was offered to nobody. -/
theorem serveTrap_of_held {core : UInt32} {t : TrapType} {sink : Sink} {f f' : Frame}
    {m m' : Machine σ} (held : m.system.lock.flag = true)
    (h : TrapExec.runOn (serveTrap core t sink) f m = ((.ok (), f'), m')) :
    ∃ hart p, Exec.runOn System.currentHart m = (.ok hart, Machine.thePlatform.set p m) ∧
      m.system.lock.isHeldBy hart = true ∧
      TrapExec.runOn (unattended core t sink) f (Machine.thePlatform.set p m) =
        ((.ok (), f'), m') := by
  obtain ⟨hart, p, hhart, ⟨hheld, hentries⟩ | hentries⟩ := runOn_entriesFor_of_taken t sink held
  · refine ⟨hart, p, hhart, hheld, ?_⟩
    obtain ⟨entries, f₁, m₁, hfirst, hrest⟩ := TrapExec.of_runOn_bind_eq_ok h
    obtain ⟨rfl, hfound⟩ := TrapExec.onMachine_eq_ok hfirst
    rw [hentries] at hfound
    obtain ⟨_, m₂, hline, hnone⟩ := Exec.of_runOn_bind_eq_ok hfound
    obtain rfl : entries = [] := (Except.ok.inj (congrArg Prod.fst hnone)).symm
    obtain rfl : m₂ = m₁ := congrArg Prod.snd hnone
    rw [unattended, TrapExec.runOn_bind, say, TrapExec.runOn_onMachine, hline]
    exact hrest
  · -- another hart holds the lock, and the trap waits for it
    rw [serveTrap, TrapExec.runOn_bind, TrapExec.runOn_onMachine, hentries] at h
    cases congrArg (·.1.1) h

/-- The last resort for a timer trap stops the timer, if the system can set it. -/
theorem fallback_stops_timer (quiet : ConsoleKeepsTiming σ) {f f' : Frame} {m m' : Machine σ}
    (h : TrapExec.runOn (fallback .timerInterrupt) f m = ((.ok (), f'), m')) :
    m'.timing = (m.ticks,
      if m.system.bound && m.platform.interfaces.firmware then maxWord else m.platform.deadline,
      m.system.bound && m.platform.interfaces.firmware) := by
  obtain ⟨_, f₁, m₁, hframe, hrest⟩ := TrapExec.of_runOn_bind_eq_ok h
  obtain rfl : m = m₁ := congrArg (·.2) hframe
  obtain ⟨sink, f₂, m₂, hsink, hrest⟩ := TrapExec.of_runOn_bind_eq_ok hrest
  obtain rfl : m = m₂ := congrArg (·.2) hsink
  obtain ⟨reachable, f₃, m₃, hreachable, hrest⟩ := TrapExec.of_runOn_bind_eq_ok hrest
  obtain rfl : m = m₃ := congrArg (·.2) hreachable
  obtain rfl : (m.system.bound && m.platform.interfaces.firmware) = reachable :=
    Except.ok.inj (congrArg (·.1.1) hreachable)
  split at hrest
  · rename_i hset
    obtain ⟨_, f₄, m₄, hdisarm, hsay⟩ := TrapExec.of_runOn_bind_eq_ok hrest
    obtain ⟨-, hline⟩ := TrapExec.onMachine_eq_ok hsay
    rw [(putLine_keeps_timing quiet _ _).of_runOn hline, if_pos hset]
    obtain rfl : _ = m₄ := congrArg (·.2) hdisarm
    rfl
  · rename_i hset
    obtain ⟨-, hline⟩ := TrapExec.onMachine_eq_ok hrest
    rw [(putLine_keeps_timing quiet _ _).of_runOn hline, if_neg hset]

/-- If nobody meddles, a timer trap without the lock of the registry stops the timer. -/
theorem timer_stops_without_lock (quiet : ConsoleKeepsTiming σ) {core : UInt32} {sink : Sink}
    {f f' : Frame} {m m' : Machine σ} (held : m.system.lock.flag = true)
    (h : TrapExec.runOn (serveTrap core .timerInterrupt sink) f m = ((.ok (), f'), m')) :
    m'.ticks = m.ticks ∧ m'.platform.deadline =
      if m.system.bound && m.platform.interfaces.firmware then maxWord
      else m.platform.deadline := by
  obtain ⟨hart, p, hhart, -, hrun⟩ := serveTrap_of_held held h
  obtain ⟨_, f₁, m₁, hsay, hrest⟩ := TrapExec.of_runOn_bind_eq_ok hrun
  obtain ⟨-, hline⟩ := TrapExec.onMachine_eq_ok hsay
  obtain ⟨_, f₂, m₂, hfallback, hend⟩ := TrapExec.of_runOn_bind_eq_ok hrest
  obtain ⟨-, hclose⟩ := TrapExec.onMachine_eq_ok hend
  have hbefore : m₁.timing = m.timing :=
    ((putLine_keeps_timing quiet _ _).of_runOn hline).trans
      (currentHart_keeps_timing.of_runOn hhart)
  have hafter : m'.timing = m₂.timing := (closeTrap_keeps_timing _ _ _).of_runOn hclose
  have hstopped := fallback_stops_timer quiet hfallback
  obtain ⟨hticks, hrest⟩ := Prod.mk.inj hbefore
  obtain ⟨hdeadline, hreach⟩ := Prod.mk.inj hrest
  rw [hticks, hdeadline, hreach] at hstopped
  have htiming := hafter.trans hstopped
  exact ⟨congrArg (·.1) htiming, congrArg (·.2.1) htiming⟩

/-! ### Since the boot -/

/-- **Timer traps come to the tick while nobody holds the lock of the registry.**  Let a kernel have
booted, and let nothing since have taken the tick away; the machine is arbitrary otherwise.  Take
any timer trap that returns, and let `m₁` be the machine when the trap has begun.

If the lock of the registry is free then, the trap is offered to the entries of `m₁` in order.
Either a handler before the tick claims it, or all of those are called and the tick follows.  The
count is then one more than when its turn came, and so one more than before the trap if the calls
before it and the observers of the console leave it alone.  The timer is set one interval after the
time that the tick read, and it is not stopped.

If the hart holds the lock itself, no handler is called.  The trap goes to the last resort.  If the
observers of the console leave them alone, the count stays as it was and the timer stops. -/
theorem timer_traps_tick
    (console : ∀ text, Exec.Leads (Client.written (σ := σ) text)
      (Spares .timerInterrupt tickProposal))
    {hart : UInt64} {start booted m m' : Machine σ} {history : List Change}
    (reachable : start.system.registry = Registry.run {} history)
    (boots : Exec.runOn (boot hart) start = (.ok (), booted))
    (since : Spares .timerInterrupt tickProposal booted m) {f f' : Frame}
    (timer : f.trapType = .timerInterrupt)
    (returned : TrapExec.runOn takeTrap f m = ((.ok (), f'), m')) :
    ∃ core sink m₁, Exec.runOn (openTrap f) m = (.ok (core, sink), m₁) ∧
      (ConsoleKeepsTiming σ → m₁.timing = m.timing) ∧
      if m₁.system.lock.flag then
        (∃ hart p, Exec.runOn System.currentHart m₁ = (.ok hart, Machine.thePlatform.set p m₁) ∧
          m₁.system.lock.isHeldBy hart = true ∧
          TrapExec.runOn (unattended core .timerInterrupt sink) f (Machine.thePlatform.set p m₁) =
            ((.ok (), f'), m')) ∧
        (ConsoleKeepsTiming σ → m'.ticks = m₁.ticks ∧ m'.platform.deadline =
          if m₁.system.bound && m₁.platform.interfaces.firmware then maxWord
          else m₁.platform.deadline)
      else ∃ earlier later m₂ calls turn,
        m₁.system.registry.entries .timerInterrupt = earlier ++ tickEntry :: later ∧
        m₂.system.registry = m₁.system.registry ∧ m₂.timing = m₁.timing ∧
        Linked (Entry.Answers .timerInterrupt sink) (f, m₂) calls turn ∧
        calls.map Call.entry <+: earlier ∧
        ((∃ c ∈ calls, c.answer.Claims) ∨
          calls.map Call.entry = earlier ∧ (∀ c ∈ calls, ¬c.answer.Claims) ∧
          Ticks turn.2 m' ∧ m'.platform.deadline ≠ maxWord ∧
          ((∀ c ∈ calls, c.after.2.ticks = c.before.2.ticks) → m'.ticks = m₁.ticks + 1)) := by
  obtain ⟨hready, hticking⟩ := boot_puts_tick_in_place console reachable boots
  obtain ⟨core, sink, m₁, opened, hserve⟩ := takeTrap_eq_ok (since.ready hready) returned
  have hspares : Spares .timerInterrupt tickProposal m m₁ :=
    (openTrap_spares console f).of_runOn opened
  have hin : tickEntry ∈ m₁.system.registry.entries .timerInterrupt :=
    (hspares.inPlace (since.inPlace hticking)).mem_entries rfl
  rw [timer] at hserve
  refine ⟨core, sink, m₁, opened, fun quiet => (openTrap_keeps_timing quiet f).of_runOn opened, ?_⟩
  split
  · rename_i held
    exact ⟨serveTrap_of_held held hserve,
      fun quiet => timer_stops_without_lock quiet held hserve⟩
  · rename_i hfree
    obtain ⟨earlier, later, m₂, calls, turn, hlist, hregistry, htiming, hlinked, hbegin, hcase⟩ :=
      serveTrap_ticks (eq_false_of_ne_true hfree) hin hserve
    refine ⟨earlier, later, m₂, calls, turn, hlist, hregistry, htiming, hlinked, hbegin,
      hcase.imp_right ?_⟩
    rintro ⟨hall, hno, hticks⟩
    refine ⟨hall, hno, hticks, hticks.armed, fun hkeep => ?_⟩
    have hturn : turn.2.ticks = m₂.ticks := hlinked.keeps (fun s => s.2.ticks) hkeep
    rw [hticks.count, hturn, ticks_of_timing htiming]

/-- A client that leaves everything alone. -/
inductive Metronome where
  | here

instance : Client Metronome where
  trapHandler _ := return .pass
  errorHandler _ _ := return .unhandled
  command _ _ _ := return 0
  written _ := return

/-- The frame of a timer trap. -/
def timerFrame : Frame where
  scause := 0x8000000000000005

/-- A machine whose kernel has booted. -/
def Metronome.booted : Machine Metronome := (Exec.runOn (boot 0) { clients := .here }).2

/-- That machine when a timer trap has begun. -/
def Metronome.interrupted : Machine Metronome := (Exec.runOn (openTrap timerFrame) booted).2

/-- The first timer trap after the boot is counted, and the timer goes on. -/
theorem metronome_ticks :
    ∃ m' : Machine Metronome,
      TrapExec.runOn takeTrap timerFrame Metronome.booted = ((.ok (), timerFrame), m') ∧
      m'.ticks = Metronome.booted.ticks + 1 ∧ m'.platform.deadline ≠ maxWord := by
  have console : ∀ text, Exec.Leads (Client.written (σ := Metronome) text)
      (Spares .timerInterrupt tickProposal) := fun _ => .pure ()
  have quiet : ConsoleKeepsTiming Metronome := fun _ => .pure ()
  have reachable : ({ clients := .here } : Machine Metronome).system.registry =
      Registry.run {} [] := rfl
  have boots : Exec.runOn (boot 0) { clients := .here } = (.ok (), Metronome.booted) := by
    have hended : (Exec.runOn (boot (σ := Metronome) 0) { clients := .here }).1 = .ok () := by
      decide +kernel
    rw [Metronome.booted, ← hended]
  obtain ⟨m', returned⟩ : ∃ m', TrapExec.runOn takeTrap timerFrame Metronome.booted =
      ((.ok (), timerFrame), m') := by
    have hended : (TrapExec.runOn takeTrap timerFrame Metronome.booted).1 =
        (.ok (), timerFrame) := by decide +kernel
    exact ⟨(TrapExec.runOn takeTrap timerFrame Metronome.booted).2, by rw [← hended]⟩
  obtain ⟨core, sink, m₁, opened, htiming, hcase⟩ :=
    timer_traps_tick console reachable boots (refl_of _ _) (by decide) returned
  have hopened : Metronome.interrupted = m₁ := by rw [Metronome.interrupted, opened]
  rw [← hopened, if_neg (by decide +kernel)] at hcase
  obtain ⟨earlier, later, m₂, calls, turn, hlist, -, -, -, hbegin, hcase⟩ := hcase
  -- the tick is the first entry, so it is called at once
  have hnone : earlier = [] := by
    have hentries : Metronome.interrupted.system.registry.entries .timerInterrupt =
        [tickEntry, ⟨.basic .timer, "Default Timer Handler", {}⟩] := by decide +kernel
    rw [hentries] at hlist
    cases earlier with
    | nil => rfl
    | cons e earlier =>
      have hrest : [_] = earlier ++ tickEntry :: later := (List.cons.inj hlist).2
      have hmem := List.mem_append_right earlier (List.mem_cons_self (a := tickEntry) (l := later))
      rw [← hrest, List.mem_singleton] at hmem
      exact absurd hmem (by decide)
  obtain rfl : calls = [] := by
    rw [hnone, List.prefix_nil, List.map_eq_nil_iff] at hbegin
    exact hbegin
  refine ⟨m', returned, ?_⟩
  rcases hcase with ⟨c, hc, -⟩ | ⟨-, -, -, harmed, hcount⟩
  · cases hc
  · rw [hcount fun c hc => absurd hc List.not_mem_nil, hopened, ticks_of_timing (htiming quiet)]
    exact ⟨rfl, harmed⟩

/-- A client that takes a timer trap when the listing of the handlers begins. -/
structure Interrupter where
  /-- How the trap ended. -/
  ended : Option (Except Stop Unit) := none

/-- The client while the trap is taken. -/
@[reducible] def Interrupter.bystander : Client Interrupter where
  trapHandler _ := return .pass
  errorHandler _ _ := return .unhandled
  command _ _ _ := return 0
  written _ := return

instance : Client Interrupter where
  trapHandler _ := return .pass
  errorHandler _ _ := return .unhandled
  command _ _ _ := return 0
  written text := do
    if text = Text.ofString "=== Registered trap handlers ===\n" then
      let (ended, _) ← ExceptT.lift (@takeTrapOf Interrupter Interrupter.bystander timerFrame)
      modify fun m => { m with clients := ⟨ended⟩ }

/-- A machine whose kernel has booted. -/
def Interrupter.booted : Machine Interrupter := (Exec.runOn (boot 0) { clients := {} }).2

/-- While the hart prints the handlers it holds the lock of the registry.  A timer trap that is
taken then returns, and yet it is not counted, and it leaves the timer stopped. -/
theorem timer_stops_while_handlers_are_printed :
    let before := Interrupter.booted
    let after := (Exec.runOn Api.printHandlers before).2
    (Exec.runOn (boot (σ := Interrupter) 0) { clients := {} }).1 = .ok () ∧
    (before.system.registry.entries .timerInterrupt).head? = some tickEntry ∧
    before.platform.deadline ≠ maxWord ∧
    after.clients.ended = some (.ok ()) ∧
    after.ticks = before.ticks ∧ after.platform.deadline = maxWord := by
  decide +kernel

end Supervisor
