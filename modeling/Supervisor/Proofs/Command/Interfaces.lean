/-
Commands on a machine without some of its interfaces.

A machine may be without its firmware, its console, or a platform altogether.  A command that goes
to the firmware or writes to a console without asking whether there is one fails there.  All but two
commands ask first, and leave what surrounds the machine alone.

* `Machine.surroundings` — what a machine has around it;
* `Exec.Guarded`, `Exec.Careful` — actions that go through no missing interface, and those that
  leave the surroundings as they were as well;
* `CommandAction.run_careful` — the commands that do not need the firmware;
* `runFirmware_misses`, `runInterruptHart_misses`, `runReboot_misses` — those that do;
* `interfaces_missed_by_commands` — what a line runs into.
-/
import Supervisor.Proofs.Action
import Supervisor.Proofs.Command.Resolution
import Supervisor.Proofs.Text.Reading

namespace Supervisor

variable {σ α β A : Type}

/-! ### Going through interfaces -/

/-- What a machine has around it: whether it knows its platform, and the platform but for what was
written to the console and for the numbers of the harts. -/
def Machine.surroundings (m : Machine σ) : Bool × Platform :=
  (m.system.bound, { m.platform with writes := [], hart := none, nextHart := 0 })

/-- Whether the firmware can be reached. -/
def Machine.reachesFirmware (m : Machine σ) : Bool :=
  m.system.bound && m.platform.interfaces.firmware

theorem Machine.bound_congr {m m' : Machine σ} (h : m'.surroundings = m.surroundings) :
    m'.system.bound = m.system.bound := congrArg Prod.fst h

theorem Machine.reachesFirmware_of_bound {m : Machine σ} (h : m.system.bound = true) :
    m.reachesFirmware = m.platform.interfaces.firmware := by
  rw [reachesFirmware, h, Bool.true_and]

theorem Machine.reachesFirmware_congr {m m' : Machine σ} (h : m'.surroundings = m.surroundings) :
    m'.reachesFirmware = m.reachesFirmware := by
  have hinterfaces : m'.platform.interfaces = m.platform.interfaces :=
    congrArg (fun s => s.2.interfaces) h
  rw [reachesFirmware, reachesFirmware, bound_congr h, hinterfaces]

/-- An action that goes through no missing interface. -/
def Exec.Guarded (x : Exec σ α) : Prop := ∀ m, (Exec.runOn x m).1 ≠ .error .missing

/-- An action that goes through no missing interface, and leaves the surroundings as they were. -/
structure Exec.Careful (x : Exec σ α) : Prop where
  guarded : Exec.Guarded x
  keeps : Exec.Keeps x Machine.surroundings

theorem Exec.Returns.guarded {x : Exec σ α} (h : Returns x) : Guarded x := by
  intro m hmissing
  obtain ⟨a, m', hreturns⟩ := h m
  rw [hreturns] at hmissing
  cases hmissing

theorem Exec.Guarded.bind {x : Exec σ α} {f : α → Exec σ β} (hx : Guarded x)
    (hf : ∀ a, Guarded (f a)) : Guarded (x >>= f) := by
  intro m hmissing
  cases hrun : Exec.runOn x m with
  | mk r m' =>
    cases r with
    | ok a =>
      rw [Exec.runOn_bind_of_ok hrun] at hmissing
      exact hf a m' hmissing
    | error e =>
      rw [Exec.runOn_bind_of_error hrun] at hmissing
      refine hx m ?_
      rw [hrun, Except.error.inj hmissing]

theorem Exec.Guarded.throw {e : Stop} (h : e ≠ .missing) : Guarded (throw e : Exec σ α) :=
  fun _ hmissing => h (Except.error.inj hmissing)

namespace Exec.Careful

theorem of_returns {x : Exec σ α} (h : Returns x) (hkeeps : Keeps x Machine.surroundings) :
    Careful x := ⟨h.guarded, hkeeps⟩

theorem pure (a : α) : Careful (Pure.pure a : Exec σ α) := .of_returns (.pure a) (.pure a)

theorem bind {x : Exec σ α} {f : α → Exec σ β} (hx : Careful x) (hf : ∀ a, Careful (f a)) :
    Careful (x >>= f) :=
  ⟨hx.guarded.bind fun a => (hf a).guarded, hx.keeps.bind fun a => (hf a).keeps⟩

theorem get : Careful (getThe (Machine σ) : Exec σ (Machine σ)) := .of_returns .get .get

theorem read (p : Part (Machine σ) A) : Careful p.read := .of_returns (.read p) (.read p)

theorem update {p : Part (Machine σ) A} (h : ∀ a m, (p.set a m).surroundings = m.surroundings)
    (f : A → A) : Careful (p.update f) := .of_returns (.update p f) (.update h f)

theorem ite {c : Prop} [Decidable c] {x y : Exec σ α} (hx : Careful x) (hy : Careful y) :
    Careful (if c then x else y) := by
  split
  · exact hx
  · exact hy

theorem forM {l : List A} {f : A → Exec σ PUnit} (h : ∀ a, Careful (f a)) : Careful (l.forM f) := by
  induction l with
  | nil => exact .pure _
  | cons a l ih => exact .bind (h a) fun _ => ih

theorem withLock {lock : Part (Machine σ) Spinlock}
    (hlock : ∀ l m, (lock.set l m).surroundings = m.surroundings)
    {body refused : Exec σ α} (hbody : Careful body) (hrefused : Careful refused) (core : UInt32) :
    Careful (withLock lock core body refused) := by
  refine ⟨?_, .withLock hlock hbody.keeps hrefused.keeps core⟩
  have hfinally : Guarded (body.finally fun m => lock.set (lock.get m).release m) :=
    hbody.guarded
  refine (Returns.read lock).guarded.bind fun l => ?_
  split
  · exact (Returns.update lock _).guarded.bind fun _ => hfinally
  · exact hrefused.guarded
  · exact .throw (by decide)

end Exec.Careful

theorem Platform.surroundings_hartId (m : Machine σ) :
    (Machine.thePlatform.set m.platform.hartId.2 m).surroundings = m.surroundings := by
  obtain ⟨hart, next, h⟩ := m.platform.hartId_snd_eq
  rw [h]
  rfl

theorem hartId_careful : Exec.Careful (hartId (σ := σ)) :=
  .of_returns (.change _ _) Platform.surroundings_hartId

/-! ### What commands are made of -/

namespace System

theorem currentHart_careful : Exec.Careful (currentHart (σ := σ)) :=
  .bind .get fun _ => .ite hartId_careful (.pure 0)

theorem console_careful : Exec.Careful (console (σ := σ)) := .bind .get fun _ => .pure _

end System

namespace ErrorSite

theorem console_careful : Exec.Careful ((system (σ := σ)).console) :=
  .bind (.read _) fun _ => .ite (.bind .get fun _ => .pure _) (.pure _)

theorem locked_careful {body refused : Exec σ α} (hbody : Exec.Careful body)
    (hrefused : Exec.Careful refused) : Exec.Careful ((system (σ := σ)).locked body refused) :=
  .bind (.bind (.read _) fun _ => .ite hartId_careful (.pure 0)) fun core =>
    .withLock (fun _ _ => rfl) hbody hrefused core

end ErrorSite

variable [Client σ]

section

variable (written : ∀ text, Exec.Careful (Client.written (σ := σ) text))

include written

theorem puts_careful (sink : Sink) (t : Text) : Exec.Careful (puts (σ := σ) sink t) := by
  cases sink with
  | nowhere => exact .pure ()
  | console => exact .bind (.of_returns (.update _ _) fun _ => rfl) fun _ => written _

theorem putLine_careful (sink : Sink) (pieces : List Text) :
    Exec.Careful (putLine (σ := σ) sink pieces) := puts_careful written sink _

theorem Registry.print_careful (sink : Sink) :
    Exec.Careful (Registry.print (σ := σ) Machine.theRegistry sink) := by
  cases sink with
  | nowhere => exact .pure ()
  | console =>
    have hentries (t : TrapType) (fuel i : Nat) :
        Exec.Careful (printEntries (σ := σ) Machine.theRegistry t .console fuel i) := by
      induction fuel generalizing i with
      | zero => exact .pure ()
      | succ fuel ih =>
        refine .bind (.read _) fun r => ?_
        split
        · exact .pure ()
        · exact .bind (putLine_careful written _ _) fun _ => ih (i + 1)
    refine .bind (puts_careful written .console _) fun _ => .forM fun t => ?_
    exact .bind (.read _) fun r => .ite
      (.bind (putLine_careful written _ _) fun _ => hentries t _ _) (.pure ())

theorem ErrorLog.print_careful (log : Part (Machine σ) ErrorLog) (count : Nat) (sink : Sink) :
    Exec.Careful (ErrorLog.print log count sink) := by
  cases sink with
  | nowhere => exact .pure ()
  | console =>
    have hrecords (count i : Nat) : Exec.Careful (printFrom log .console count i) := by
      induction count generalizing i with
      | zero => exact .pure ()
      | succ count ih =>
        refine .bind (.read _) fun l => ?_
        split
        · exact .pure ()
        · exact .bind (putLine_careful written _ _) fun _ => ih (i + 1)
    exact .bind (.read _) fun l => .ite (puts_careful written .console _)
      (.bind (putLine_careful written _ _) fun _ => hrecords _ _)

theorem Trace.print_careful (trace : Part (Machine σ) Trace) (sink : Sink) :
    Exec.Careful (Trace.print trace sink) := by
  cases sink with
  | nowhere => exact .pure ()
  | console =>
    have hevents (count i : Nat) : Exec.Careful (printFrom trace .console count i) := by
      induction count generalizing i with
      | zero => exact .pure ()
      | succ count ih =>
        refine .bind (.read _) fun t => ?_
        split
        · exact .pure ()
        · exact .bind (puts_careful written .console _) fun _ => ih (i + 1)
    exact .bind (.read _) fun t => .ite (puts_careful written .console _)
      (.bind (puts_careful written .console _) fun _ => .bind (hevents _ _) fun _ =>
        puts_careful written .console _)

theorem CommandTable.print_careful (table : Part (Machine σ) CommandTable) (sink : Sink) :
    Exec.Careful (CommandTable.print table sink) := by
  cases sink with
  | nowhere => exact .pure ()
  | console =>
    have hcommands (fuel i : Nat) : Exec.Careful (printFrom table .console fuel i) := by
      induction fuel generalizing i with
      | zero => exact .pure ()
      | succ fuel ih =>
        refine .bind (.read _) fun t => ?_
        split
        · exact .pure ()
        · exact .bind (putLine_careful written _ _) fun _ => ih (i + 1)
    exact .bind (puts_careful written .console _) fun _ => hcommands _ _

theorem Contexts.print_careful (sink : Sink) :
    Exec.Careful (Contexts.print (σ := σ) Machine.thePool sink) := by
  cases sink with
  | nowhere => exact .pure ()
  | console =>
    refine .bind System.currentHart_careful fun core =>
      .withLock (fun _ _ => rfl) ?_ (.pure ()) core
    refine .bind (puts_careful written .console _) fun _ => .bind (.read _) fun p =>
      .forM fun a => ?_
    exact .ite (putLine_careful written _ _) (.pure _)

/-! ### The commands -/

theorem answerNotReady_careful : Exec.Careful (answerNotReady (σ := σ) .console) :=
  .bind (puts_careful written .console _) fun _ => .pure _

theorem commandWhenReady_careful {body : Exec σ Unit} (hbody : Exec.Careful body) :
    Exec.Careful (commandWhenReady .console body) :=
  .bind (.bind .get fun _ => .pure _) fun _ =>
    .ite (.bind hbody fun _ => .pure _) (answerNotReady_careful written)

omit [Client σ] written in
theorem Api.whenReady_careful {otherwise : α} {body : Exec σ α} (hbody : Exec.Careful body) :
    Exec.Careful (Api.whenReady otherwise body) :=
  .bind (.bind .get fun _ => .pure _) fun _ => .ite hbody (.pure _)

theorem runErrorLog_careful (arguments : Text) :
    Exec.Careful (runErrorLog (σ := σ) arguments .console) := by
  have hlog (count : Nat) : Exec.Careful (ErrorSite.system.printLog (σ := σ) count) :=
    ErrorSite.locked_careful (.bind ErrorSite.console_careful fun sink =>
      ErrorLog.print_careful written _ count sink) (.pure ())
  rw [runErrorLog]
  split
  · exact .bind (puts_careful written .console _) fun _ => .pure _
  · exact commandWhenReady_careful written (Api.whenReady_careful (hlog _))

theorem runNesting_careful : Exec.Careful (runNesting (σ := σ) .console) := by
  have husage : Exec.Careful (Api.stackUsage (σ := σ)) :=
    Api.whenReady_careful (.bind System.currentHart_careful fun _ => .bind .get fun _ => .pure _)
  have hlevel : Exec.Careful (Api.nestLevel (σ := σ)) :=
    Api.whenReady_careful (.bind .get fun _ => .pure _)
  refine .bind husage fun usage => ?_
  split
  · exact answerNotReady_careful written
  · exact .bind hlevel fun _ => .bind (.read _) fun _ =>
      .bind (putLine_careful written _ _) fun _ => .pure _

/-- A command that does not need the firmware goes through no missing interface. -/
theorem CommandAction.run_careful {a : CommandAction} (hclient : ∀ n, a ≠ .client n)
    (hfirmware : a ∉ [.firmware, .interruptHart, .reboot]) (arguments : Text) :
    Exec.Careful (a.run (σ := σ) arguments .console) := by
  have hline (t : Text) : Exec.Careful (putsUnguarded (σ := σ) .console t) :=
    puts_careful written .console t
  cases a with
  | help => exact .bind (CommandTable.print_careful written _ _) fun _ => .pure _
  | handlers =>
    refine commandWhenReady_careful written (Api.whenReady_careful ?_)
    exact .bind System.currentHart_careful fun core => .withLock (fun _ _ => rfl)
      (.bind System.console_careful fun sink => Registry.print_careful written sink) (.pure ()) core
  | errorLog => exact runErrorLog_careful written arguments
  | errorClear =>
    refine commandWhenReady_careful written (.bind (Api.whenReady_careful ?_) fun _ => hline _)
    exact ErrorSite.locked_careful (.update (fun _ _ => rfl) _) (.pure ())
  | errorHandlers =>
    refine commandWhenReady_careful written (Api.whenReady_careful ?_)
    refine .bind ErrorSite.console_careful fun sink => ErrorSite.locked_careful ?_ (.pure ())
    exact .bind (.read _) fun _ => .bind (putLine_careful written _ _) fun _ =>
      .forM fun _ => putLine_careful written _ _
  | panicState =>
    exact .bind (Api.whenReady_careful (.bind (.read _) fun _ => .pure _)) fun _ =>
      .bind (putLine_careful written _ _) fun _ => .pure _
  | panicReset =>
    refine .bind (Api.whenReady_careful (.bind (.update (fun _ _ => rfl) _) fun _ => .pure _))
      fun status => ?_
    split
    · exact .bind (hline _) fun _ => .pure _
    · exact .bind (putLine_careful written _ _) fun _ => .pure _
  | nesting => exact runNesting_careful written
  | trace => exact .bind (Trace.print_careful written _ _) fun _ => .pure _
  | traceOn => exact .bind (.update (fun _ _ => rfl) _) fun _ => .bind (hline _) fun _ => .pure _
  | traceOff => exact .bind (.update (fun _ _ => rfl) _) fun _ => .bind (hline _) fun _ => .pure _
  | traceClear => exact .bind (.update (fun _ _ => rfl) _) fun _ => .bind (hline _) fun _ => .pure _
  | firmware => exact absurd (by simp) hfirmware
  | interruptHart => exact absurd (by simp) hfirmware
  | reboot => exact absurd (by simp) hfirmware
  | ticks => exact .bind .get fun _ => .bind (putLine_careful written _ _) fun _ => .pure _
  | contexts => exact .bind (Contexts.print_careful written _) fun _ => .pure _
  | client n => exact absurd rfl (hclient n)

theorem answerUnknown_careful (line : Text) : Exec.Careful (answerUnknown (σ := σ) line) :=
  .bind (putLine_careful written _ _) fun _ => .pure _

end

/-! ### The commands that need the firmware -/

/-- Says that the firmware cannot be reached, and answers so. -/
def answerNoFirmware : Exec σ Int := do
  puts .console "Firmware interface unavailable\n"
  return -1

/-- The arguments of a command name a hart. -/
def NamesHart (arguments : Text) : Prop :=
  ∃ token more hart, Asks arguments token more ∧ Number.Denotes token hart ∧ hart < hartCount

omit [Client σ] in
theorem System.runOn_hasFirmware (m : Machine σ) :
    Exec.runOn System.hasFirmware m = (.ok m.reachesFirmware, m) := rfl

section

variable {m : Machine σ}

omit [Client σ]

theorem runOn_requireFirmware_of_reachable (h : m.reachesFirmware = true) :
    Exec.runOn requireFirmware m = (.ok (), m) := by
  rw [requireFirmware, Exec.runOn_bind_of_ok (System.runOn_hasFirmware m), h]
  rfl

theorem runOn_requireFirmware_of_unreachable (h : m.reachesFirmware = false) :
    Exec.runOn requireFirmware m = (.error .missing, m) := by
  rw [requireFirmware, Exec.runOn_bind_of_ok (System.runOn_hasFirmware m), h]
  rfl

end

theorem namesHart_iff (arguments : Text) :
    NamesHart arguments ↔ (hartNamed? arguments).isSome = true := by
  rw [hartNamed?, Option.isSome_filter, Option.any_eq_true]
  constructor
  · rintro ⟨token, more, hart, hasks, hdenotes, hhart⟩
    have hword : hart < 2 ^ 32 := hhart.trans (by decide)
    refine ⟨hart.toUInt32, ?_, ?_⟩
    · rw [hasks.next_eq, Number.word32?_eq_some_iff, UInt32.toNat_ofNat_of_lt' hword]
      exact hdenotes
    · rw [decide_eq_true_iff, UInt32.toNat_ofNat_of_lt' hword]
      exact hhart
  · rintro ⟨hart, hfound, hhart⟩
    refine ⟨_, (Token.next 32 arguments).2, hart.toNat, (asks_iff _ _ _).2 rfl,
      (Number.word32?_eq_some_iff _ _).1 hfound, ?_⟩
    exact of_decide_eq_true hhart

section

variable {m : Machine σ}

/-- Without firmware the first of the three says so. -/
theorem runOn_runFirmware_of_unreachable (h : m.reachesFirmware = false) :
    Exec.runOn (runFirmware .console) m = Exec.runOn answerNoFirmware m := by
  rw [runFirmware, Exec.runOn_bind_of_ok (System.runOn_hasFirmware m), h]
  rfl

/-- Without a platform the other two say so. -/
theorem runOn_runInterruptHart_of_unbound (h : m.system.bound = false) (arguments : Text) :
    Exec.runOn (runInterruptHart arguments .console) m =
      Exec.runOn (answerNotReady .console) m := by
  rw [runInterruptHart, Exec.runOn_bind_of_ok (Exec.runOn_get m), h]
  rfl

theorem runOn_runReboot_of_unbound (h : m.system.bound = false) :
    Exec.runOn (runReboot .console) m = Exec.runOn (answerNotReady .console) m := by
  rw [runReboot, Exec.runOn_bind_of_ok (Exec.runOn_get m), h]
  rfl

end

/-- A run from `m` has gone through a missing interface exactly if `c` holds, and without firmware
it has left the surroundings as they were. -/
structure Misses (m : Machine σ) (run : Except Stop α × Machine σ) (c : Prop) : Prop where
  missing_iff : run.1 = .error .missing ↔ c
  keeps : m.reachesFirmware = false → run.2.surroundings = m.surroundings

omit [Client σ] in
theorem Exec.Careful.misses {x : Exec σ α} (h : Careful x) (m : Machine σ) {c : Prop} (hc : ¬c) :
    Misses m (runOn x m) c :=
  ⟨⟨fun hmissing => absurd hmissing (h.guarded m), fun h => absurd h hc⟩, fun _ => h.keeps m⟩

omit [Client σ] in
theorem Exec.Returns.misses {x : Exec σ α} (h : Returns x) {m : Machine σ}
    (hreaches : m.reachesFirmware = true) {c : Prop} (hc : ¬c) : Misses m (runOn x m) c := by
  refine ⟨⟨fun hmissing => absurd hmissing (h.guarded m), fun h => absurd h hc⟩, fun h => ?_⟩
  rw [hreaches] at h
  cases h

section

variable (returns : ConsoleReturns σ)
  (keeps : ∀ text, Exec.Keeps (Client.written (σ := σ) text) Machine.surroundings)

include returns keeps

theorem written_careful (text : Text) : Exec.Careful (Client.written (σ := σ) text) :=
  .of_returns (returns text) (keeps text)

/-- The first of the three asks before it goes to the firmware. -/
theorem runFirmware_misses (m : Machine σ) :
    Misses m (Exec.runOn (runFirmware .console) m) False := by
  have hwritten := written_careful returns keeps
  cases h : m.reachesFirmware with
  | false =>
    rw [runOn_runFirmware_of_unreachable h]
    exact Exec.Careful.misses (.bind (puts_careful hwritten _ _) fun _ => .pure _) m id
  | true =>
    have hline := putLine_returns returns .console
    rw [runFirmware, Exec.runOn_bind_of_ok (System.runOn_hasFirmware m), if_pos h,
      Exec.runOn_bind_of_ok (runOn_requireFirmware_of_reachable h)]
    refine Exec.Returns.misses ?_ h id
    exact .bind (hline _) fun _ => .bind (.change _ _) fun _ => .bind (hline _) fun _ => .pure _

/-- The second does not: it fails if it is to reach a hart through missing firmware. -/
theorem runInterruptHart_misses (arguments : Text) (m : Machine σ) :
    Misses m (Exec.runOn (runInterruptHart arguments .console) m)
      (m.system.bound = true ∧ m.platform.interfaces.firmware = false ∧ NamesHart arguments) := by
  have hwritten := written_careful returns keeps
  cases hbound : m.system.bound with
  | false =>
    rw [runOn_runInterruptHart_of_unbound hbound]
    exact (answerNotReady_careful hwritten).misses m fun h => nomatch h.1
  | true =>
    rw [runInterruptHart, Exec.runOn_bind_of_ok (Exec.runOn_get m), if_pos hbound, namesHart_iff]
    cases hartNamed? arguments with
    | none =>
      refine Exec.Careful.misses ?_ m fun h => nomatch h.2.2
      exact .bind (putLine_careful hwritten _ _) fun _ => .pure _
    | some hart =>
      simp only
      have hfirmware := Machine.reachesFirmware_of_bound hbound
      rw [← hfirmware]
      cases hreaches : m.reachesFirmware with
      | false =>
        rw [Exec.runOn_bind_of_error (runOn_requireFirmware_of_unreachable hreaches)]
        exact ⟨⟨fun _ => ⟨trivial, rfl, rfl⟩, fun _ => rfl⟩, fun _ => rfl⟩
      | true =>
        have hline := putLine_returns returns .console
        rw [Exec.runOn_bind_of_ok (runOn_requireFirmware_of_reachable hreaches)]
        refine Exec.Returns.misses ?_ hreaches fun h => nomatch h.2.1
        exact .bind (.change _ _) fun _ =>
          .ite (.bind (hline _) fun _ => .pure _) (.bind (hline _) fun _ => .pure _)

/-- Nor does the third. -/
theorem runReboot_misses (m : Machine σ) :
    Misses m (Exec.runOn (runReboot .console) m)
      (m.system.bound = true ∧ m.platform.interfaces.firmware = false) := by
  have hwritten := written_careful returns keeps
  cases hbound : m.system.bound with
  | false =>
    rw [runOn_runReboot_of_unbound hbound]
    exact (answerNotReady_careful hwritten).misses m fun h => nomatch h.1
  | true =>
    obtain ⟨_, m₁, hputs⟩ := puts_returns returns .console "Rebooting...\n" m
    have hkept : m₁.surroundings = m.surroundings :=
      (puts_careful hwritten _ _).keeps.of_runOn hputs
    rw [runReboot, Exec.runOn_bind_of_ok (Exec.runOn_get m), if_pos hbound, putsUnguarded_console,
      Exec.runOn_bind_of_ok hputs, ← Machine.reachesFirmware_of_bound hbound]
    have hsame : m₁.reachesFirmware = m.reachesFirmware := Machine.reachesFirmware_congr hkept
    cases hreaches : m.reachesFirmware with
    | false =>
      rw [Exec.runOn_bind_of_error (runOn_requireFirmware_of_unreachable (hsame.trans hreaches))]
      exact ⟨⟨fun _ => ⟨rfl, rfl⟩, fun _ => rfl⟩, fun _ => hkept⟩
    | true =>
      rw [Exec.runOn_bind_of_ok (runOn_requireFirmware_of_reachable (hsame.trans hreaches))]
      refine ⟨⟨fun h => ?_, fun h => nomatch h.2⟩, fun h => ?_⟩
      · cases Except.error.inj h
      · rw [hreaches] at h
        cases h

/-- A command goes through missing firmware if it restarts the machine, or sends an interrupt to a
hart. -/
theorem CommandAction.run_misses {a : CommandAction} (hclient : ∀ n, a ≠ .client n)
    (arguments : Text) (m : Machine σ) :
    Misses m (Exec.runOn (a.run arguments .console) m)
      (m.system.bound = true ∧ m.platform.interfaces.firmware = false ∧
        (a = .reboot ∨ a = .interruptHart ∧ NamesHart arguments)) := by
  by_cases hneeds : a ∈ [CommandAction.firmware, .interruptHart, .reboot]
  · simp only [List.mem_cons, List.not_mem_nil, or_false] at hneeds
    rcases hneeds with rfl | rfl | rfl
    · have hrun := runFirmware_misses returns keeps m
      exact ⟨hrun.missing_iff.trans (by simp), hrun.keeps⟩
    · have hrun := runInterruptHart_misses returns keeps arguments m
      exact ⟨hrun.missing_iff.trans (by simp), hrun.keeps⟩
    · have hrun := runReboot_misses returns keeps m
      exact ⟨hrun.missing_iff.trans (by simp), hrun.keeps⟩
  · have hcareful := run_careful (written_careful returns keeps) hclient hneeds arguments
    refine hcareful.misses m ?_
    rintro ⟨-, -, rfl | ⟨rfl, -⟩⟩ <;> simp at hneeds

end

/-- A table has a command of this name that does `a`. -/
def CommandTable.Offers (t : CommandTable) (name : Text) (a : CommandAction) : Prop :=
  ∃ c ∈ t.commands, c.name = name ∧ c.action = a

omit [Client σ] in
theorem CommandTable.Sound.offers_iff {t : CommandTable} (h : t.Sound) {c : Command}
    (hc : c ∈ t.commands) (a : CommandAction) : t.Offers c.name a ↔ c.action = a := by
  refine ⟨fun ⟨d, hd, hname, haction⟩ => ?_, fun haction => ⟨c, hc, rfl, haction⟩⟩
  have hsame : d = c := List.inj_on_of_nodup_map h.distinct hd hc hname
  rwa [hsame] at haction

/-- **Two commands go through missing firmware, and no command through anything else that is
missing.**  A line that names no command of a client fails in this way exactly if the machine has a
platform without firmware, and the line asks to restart it or to send an interrupt to one of its
harts.  What surrounds the machine stays as it was wherever the firmware cannot be reached, and
everywhere if the line asks for none of the three commands that need it.  Without firmware the first
of these says so, and without a platform the other two say that the system is not ready; the status
is -1 then. -/
theorem interfaces_missed_by_commands (returns : ConsoleReturns σ)
    (keeps : ∀ text, Exec.Keeps (Client.written (σ := σ) text) Machine.surroundings)
    {table : Part (Machine σ) CommandTable} {m : Machine σ} (sound : (table.get m).Sound)
    {line name rest : Text} (asks : Asks (line.take lineCapacity) name rest)
    (own : ∀ n, ¬(table.get m).Offers name (.client n)) :
    let run := Exec.runOn (CommandTable.runLine table line .console) m
    let offers := (table.get m).Offers name
    (run.1 = .error .missing ↔
      m.system.bound = true ∧ m.platform.interfaces.firmware = false ∧
        (offers .reboot ∨ offers .interruptHart ∧ NamesHart (Text.upToNul rest))) ∧
    (m.reachesFirmware = false ∨ ¬(offers .firmware ∨ offers .interruptHart ∨ offers .reboot) →
      run.2.surroundings = m.surroundings) ∧
    (offers .firmware → m.reachesFirmware = false → run = Exec.runOn answerNoFirmware m) ∧
    (offers .interruptHart ∨ offers .reboot → m.system.bound = false →
      run = Exec.runOn (answerNotReady .console) m) := by
  intro run offers
  have hwritten := written_careful returns keeps
  have hrun : run = _ := runLine_of_asks asks m
  by_cases hsome : ∃ c ∈ (table.get m).commands, c.name = name
  · obtain ⟨c, hc, rfl⟩ := hsome
    rw [if_neg (sound.named c hc), sound.find?_of_mem hc] at hrun
    simp only at hrun
    have hoffers (a : CommandAction) : offers a ↔ c.action = a := sound.offers_iff hc a
    have hclient (n : Nat) : c.action ≠ .client n := fun h => own n ((hoffers _).2 h)
    have hmisses := CommandAction.run_misses returns keeps hclient (Text.upToNul rest) m
    rw [hrun, hoffers, hoffers, hoffers]
    refine ⟨hmisses.missing_iff, ?_, fun haction hunreachable => ?_, fun haction hunbound => ?_⟩
    · rintro (hunreachable | hother)
      · exact hmisses.keeps hunreachable
      · exact (CommandAction.run_careful hwritten hclient (by simpa using hother) _).keeps m
    · rw [haction]
      exact runOn_runFirmware_of_unreachable hunreachable
    · rcases haction with haction | haction <;> rw [haction]
      · exact runOn_runInterruptHart_of_unbound hunbound _
      · exact runOn_runReboot_of_unbound hunbound
  · have hnone (a : CommandAction) : ¬offers a := fun ⟨c, hc, hname, _⟩ => hsome ⟨c, hc, hname⟩
    have hcareful : ∃ x : Exec σ Int, run = Exec.runOn x m ∧ Exec.Careful x := by
      rw [(CommandTable.find?_eq_none_iff name).2 fun c hc hname => hsome ⟨c, hc, hname⟩] at hrun
      rw [hrun]
      split
      · exact ⟨pure (-1), rfl, .pure _⟩
      · exact ⟨_, rfl, answerUnknown_careful hwritten _⟩
    obtain ⟨x, hx, hcareful⟩ := hcareful
    rw [hx]
    refine ⟨⟨fun h => absurd h (hcareful.guarded m), ?_⟩, fun _ => hcareful.keeps m,
      fun h => absurd h (hnone _), fun h => absurd h (not_or.2 ⟨hnone _, hnone _⟩)⟩
    rintro ⟨-, -, h | h⟩
    · exact absurd h (hnone _)
    · exact absurd h.1 (hnone _)

/-- Somebody at the console of a machine whose firmware cannot be reached. -/
inductive Operator where
  | here

instance : Client Operator where
  trapHandler _ := return .pass
  errorHandler _ _ := return .unhandled
  command _ _ _ := return 0
  written _ := return

def Operator.machine : Machine Operator where
  platform.interfaces.firmware := false
  system.bound := true
  clients := .here

open Operator in
/-- An interrupt is sent, and a restart asked for, through firmware that is not there. -/
theorem operator_fails_on_missing_firmware :
    let run (line : Text) :=
      Exec.runOn (CommandTable.runLine Machine.theConsole line .console) machine
    (run "ipi 1").1 = .error .missing ∧ (run "reboot").1 = .error .missing := by
  decide +kernel

open Operator in
/-- A request to show the firmware is turned away, and one to send an interrupt fails. -/
theorem operator_asks_for_firmware :
    let run (line : Text) :=
      Exec.runOn (CommandTable.runLine Machine.theConsole line .console) machine
    run "sbi" = Exec.runOn answerNoFirmware machine ∧ (run "ipi 1").1 = .error .missing := by
  intro run
  have returns : ConsoleReturns Operator := fun _ => .pure ()
  have keeps (text : Text) :
      Exec.Keeps (Client.written (σ := Operator) text) Machine.surroundings := .pure ()
  have sound : (Machine.theConsole.get machine).Sound := CommandTable.sound_initial []
  have own (name : Text) (n : Nat) : ¬(Machine.theConsole.get machine).Offers name (.client n) := by
    have hall : ∀ c ∈ CommandTable.initial.commands,
        c.action matches .client _ → False := by decide +kernel
    rintro ⟨c, hc, -, haction⟩
    exact hall c hc (by rw [haction])
  have hshow : Asks (("sbi" : Text).take lineCapacity) "sbi" [] := (asks_iff _ _ _).2 (by decide)
  have hsend : Asks (("ipi 1" : Text).take lineCapacity) "ipi" "1" :=
    (asks_iff _ _ _).2 (by decide)
  obtain ⟨-, -, hshown, -⟩ := interfaces_missed_by_commands returns keeps sound hshow (own _)
  obtain ⟨hsent, -⟩ := interfaces_missed_by_commands returns keeps sound hsend (own _)
  have hfirmware : (Machine.theConsole.get machine).Offers "sbi" .firmware := by
    show ∃ c ∈ CommandTable.initial.commands, _
    decide +kernel
  have hinterrupt : (Machine.theConsole.get machine).Offers "ipi" .interruptHart := by
    show ∃ c ∈ CommandTable.initial.commands, _
    decide +kernel
  have hhart : NamesHart (Text.upToNul "1") := (namesHart_iff _).2 (by decide)
  exact ⟨hshown hfirmware rfl, hsent.2 ⟨rfl, rfl, .inr ⟨hinterrupt, hhart⟩⟩⟩

end Supervisor
