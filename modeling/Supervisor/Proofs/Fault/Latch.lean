/-
Panic mode follows the fatal errors.

Panic mode is latched by a report of a fatal error, before anybody else runs, and stays latched
until it is reset.  As long as it is latched, reports are put aside.  A fatal error that is not put
aside either finds somebody who helps, or is the end of the system.

* `handle_of_latched` — a report while panic mode is latched;
* `handle_of_clear` — a report while it is not;
* `halt_of_calm` — the end of the system asks the firmware once, if there is one;
* `conclude_of_calm` — the end of a report of a fatal error;
* `panic_mode_follows_fatal_errors` — the whole of it, along with what the journal tells.
-/
import Supervisor.Proofs.Fault.Dispatch
import Supervisor.Proofs.Fault.Journal

namespace Supervisor

variable {σ α : Type}

theorem helped_outcomeOf_iff {answers : List ErrorOutcome} :
    (outcomeOf answers).helped = true ↔ ∃ o ∈ answers, o = .handled ∨ o = .partially := by
  constructor
  · intro h
    by_cases hhandled : .handled ∈ answers
    · exact ⟨_, hhandled, .inl rfl⟩
    · by_cases hpartially : .partially ∈ answers
      · exact ⟨_, hpartially, .inr rfl⟩
      · rw [outcomeOf, if_neg hhandled, if_neg hpartially] at h
        split at h <;> cases h
  · rintro ⟨o, ho, rfl | rfl⟩
    · rw [outcomeOf, if_pos ho]
      rfl
    · rw [outcomeOf, if_pos ho]
      split <;> rfl

/-- The platform once its firmware was asked to shut down. -/
def Platform.shutDown (p : Platform) : Platform :=
  { p with shutdowns := p.shutdowns + 1 }.write "[SBI] system shutdown requested\n"

namespace ErrorSite

variable [client : Client σ] {s : ErrorSite σ} {v : Standing} {m : Machine σ}

/-- Lines are printed, and things stay calm. -/
theorem exists_printed_of_calm (quiet : s.Quiet) (sink : Sink) (pieces : List Text)
    (h : s.Calm v m) : ∃ m', Printed sink pieces m m' ∧ s.Calm v m' := by
  obtain ⟨_, m', hline, hm'⟩ := ((s.upkeep_calm quiet v).line sink pieces).returns h
  exact ⟨m', printed_iff.2 hline, hm'⟩

/-! ### While panic mode is latched -/

/-- A report while panic mode is latched is put aside, and that is all that becomes of it. -/
theorem handle_of_latched (quiet : s.Quiet) (e : SystemError) (h : s.Calm v m)
    (latched : (s.table.get m).panicMode = true) :
    ∃ m', s.PutAside e m m' ∧ s.Calm v m' ∧
      ∀ other : Client σ, other.written = client.written →
        Exec.runOn (@handle σ other s e) m = (.ok .ignored, m') := by
  have hraised : s.Calm v (s.raised e m) := h.noted _ _ _
  obtain ⟨m', haside, hm'⟩ := exists_printed_of_calm quiet (s.sink m)
    ["[PANIC] ignoring error while in panic mode: ", e.line, "\n"] (hraised.recorded e .ignored)
  have hreceive := PutAside.runOn_receive haside latched (hraised.passes.runOn_record e .ignored)
  exact ⟨m', haside, hm', fun other same => Exec.runOn_bind_of_ok (hreceive other same)⟩

/-! ### While it is clear -/

theorem exists_received_of_calm (quiet : s.Quiet) (e : SystemError) (h : s.Calm v m) :
    ∃ m', s.Received e m m' ∧ s.Calm v m' := by
  have hraised : s.Calm v (s.raised e m) := h.noted _ _ _
  simp only [Received]
  split
  · exact exists_printed_of_calm quiet _ _ (hraised.latched.noted _ _ _)
  · exact ⟨_, rfl, hraised⟩

/-- Between the two machines the entries that want an error are read under the lock of the site.  A
hart that holds the lock itself gets none, and a line tells of that. -/
def Picked (s : ErrorSite σ) (e : SystemError) (sink : Sink) (entries : List ErrorEntry)
    (m m' : Machine σ) : Prop :=
  if s.isTaken m then
    entries = [] ∧
      Printed sink ["[ERROR] handler table busy on this hart, dispatch skipped\n"] (s.asked m) m'
  else entries = (s.table.get m).matching e ∧ m' = s.lock.set ⟨false, noOwner⟩ (s.asked m)

theorem takers_of_calm (quiet : s.Quiet) (e : SystemError) (sink : Sink) (h : s.Calm v m) :
    ∃ entries m', s.Picked e sink entries m m' ∧
      Exec.runOn (s.takers e sink) m = (.ok entries, m') ∧ s.Calm v m' ∧
      (s.isTaken m' = false ∨ entries = []) := by
  simp only [Picked]
  cases htaken : s.isTaken m with
  | false =>
    refine ⟨_, _, ⟨rfl, rfl⟩, s.runOn_takers_of_free e sink htaken, ?_, .inl ?_⟩
    · exact h.asked.set_table rfl fun hflag => Bool.noConfusion hflag
    · exact congrArg (·.lock.flag) (s.table_lock_set _ _)
  | true =>
    obtain ⟨m', hline, hm'⟩ := exists_printed_of_calm quiet sink
      ["[ERROR] handler table busy on this hart, dispatch skipped\n"] h.asked
    refine ⟨[], m', ⟨rfl, hline⟩, ?_, hm', .inr rfl⟩
    rw [takers, s.runOn_locked_of_held _ _ (h.passes.isHeldBy htaken),
      Exec.runOn_bind_of_ok (printed_iff.1 hline)]
    rfl

/-- A report while panic mode is clear comes to its end after the calls of its walk. -/
theorem handle_of_clear (quiet : s.Quiet) (e : SystemError) (h : s.Calm v m)
    (clear : (s.table.get m).panicMode = false) :
    ∃ m₁ entries m₂, s.Received e m m₁ ∧ s.Picked e (s.sink m) entries m₁ m₂ ∧ s.Calm v m₂ ∧
      ∀ calls last, Linked (ErrorEntry.Answers s e) m₂ calls last →
        UpTo ErrorOutcome.Claims entries calls → s.Calm (s.standing last) last ∧
          Exec.runOn (s.handle e) m =
            Exec.runOn (s.conclude e (s.sink m) (outcomeOf (calls.map Call.answer))) last := by
  obtain ⟨m₁, hreceived, hm₁⟩ := exists_received_of_calm quiet e h
  obtain ⟨entries, m₂, hpicked, htakers, hm₂, hfree⟩ := takers_of_calm quiet e (s.sink m) hm₁
  refine ⟨m₁, entries, m₂, hreceived, hpicked, hm₂, fun calls last hlinked hupTo => ⟨?_, ?_⟩⟩
  · -- whoever is called leaves the lock as it is, and if nobody is, then nothing has changed
    refine ⟨?_, rfl⟩
    rcases hfree with hfree | rfl
    · have hlastFree : s.isTaken last = false :=
        hlinked.preserves (fun hcall hfree => hcall.2.trans hfree) hfree
      intro htaken
      rw [hlastFree] at htaken
      cases htaken
    · obtain rfl := hupTo.eq_nil
      cases hlinked
      exact hm₂.passes
  · have hoffer : Exec.runOn (offer e entries .unhandled) m₂ =
        (.ok (outcomeOf (calls.map Call.answer)), last) := by
      rw [offer_of_walk hlinked hupTo (by decide), outcomeOf_unhandled]
    have hsettle : Exec.runOn (s.settle e (s.sink m)) m₁ =
        Exec.runOn (s.conclude e (s.sink m) (outcomeOf (calls.map Call.answer))) last := by
      rw [settle, Exec.runOn_bind_of_ok htakers, Exec.runOn_bind_of_ok hoffer]
    rw [handle, Exec.runOn_bind_of_ok (hreceived.runOn_receive clear client rfl)]
    exact hsettle

/-! ### The end of the system -/

/-- Between the two machines the end of the system is announced, and the log is printed. -/
def LastWords (s : ErrorSite σ) (e : SystemError) (m m' : Machine σ) : Prop :=
  ∃ m₁,
    Printed (s.sink m) ["[FATAL] unhandled fatal error, system halting\n[FATAL] ", e.line, "\n"]
      m m₁ ∧
    Exec.runOn (s.printLog logCapacity) m₁ = (.ok (), m')

/-- After its last words the system asks the firmware to shut down, once and for a failure, if it
can. -/
theorem halt_of_calm (quiet : s.Quiet) (e : SystemError) (h : s.Calm v m) :
    ∃ m', s.LastWords e m m' ∧ s.Calm v m' ∧
      let ended := Exec.runOn (s.halt (α := α) e) m
      (v.attached = true ∧ v.firmware = true →
        ended = (.error (.halt 1 false), Machine.thePlatform.set m'.platform.shutDown m')) ∧
      (¬(v.attached = true ∧ v.firmware = true) → ended.2.platform.shutdowns = v.shutdowns) := by
  obtain ⟨m₁, hline, hm₁⟩ := exists_printed_of_calm quiet (s.sink m)
    ["[FATAL] unhandled fatal error, system halting\n[FATAL] ", e.line, "\n"] h
  obtain ⟨_, m₂, hlog, hm₂⟩ := ((s.upkeep_calm quiet v).printLog logCapacity).returns hm₁
  refine ⟨m₂, ⟨m₁, hline, hlog⟩, hm₂, ?_⟩
  intro ended
  have hfirmware : Exec.runOn s.hasFirmware m₂ = (.ok (v.attached && v.firmware), m₂) := by
    rw [← hm₂.standing]
    rfl
  have hended : ended = Exec.runOn (if v.attached && v.firmware then do
        let _ ← shutDown (α := PUnit) 1
        s.sleepForGood
      else s.sleepForGood) m₂ := by
    show Exec.runOn (s.halt e) m = _
    rw [halt, Exec.runOn_bind_of_ok (s.runOn_console m),
      Exec.runOn_bind_of_ok (printed_iff.1 hline), Exec.runOn_bind_of_ok hlog,
      Exec.runOn_bind_of_ok hfirmware]
  refine ⟨fun hreaches => ?_, fun hreaches => ?_⟩
  · have hshutDown : Exec.runOn (shutDown (σ := σ) (α := PUnit) 1) m₂ =
        (.error (.halt 1 false), Machine.thePlatform.set m₂.platform.shutDown m₂) := rfl
    rw [hended, if_pos (Bool.and_eq_true_iff.2 hreaches), Exec.runOn_bind_of_error hshutDown]
  · rw [if_neg fun hboth => hreaches (Bool.and_eq_true_iff.1 hboth)] at hended
    have hkeeps : Exec.Keeps (s.sleepForGood (α := α)) fun m => m.platform.shutdowns := by
      refine s.sleepForGood_keeps (fun m => m.platform.hartId_snd.2.1) fun m => ?_
      show m.platform.idle.2.shutdowns = m.platform.shutdowns
      rw [Platform.idle]
      split <;> rfl
    rw [hended]
    exact (hkeeps m₂).trans (congrArg Standing.shutdowns hm₂.standing)

/-- The end of a report: it returns if somebody helped with a fatal error, else the system ends. -/
theorem conclude_of_calm (quiet : s.Quiet) {e : SystemError} (fatal : e.isFatal = true)
    (sink : Sink) (o : ErrorOutcome) (h : s.Calm v m) :
    ∃ m', s.Closed e sink o m m' ∧ s.Calm v m' ∧
      let ended := Exec.runOn (s.conclude e sink o) m
      (o.helped = true → ended = (.ok o, m')) ∧
      (o.helped = false → ∃ m'', s.LastWords e m' m'' ∧ s.Calm v m'' ∧ (∀ r, ended.1 ≠ .ok r) ∧
        (v.attached = true ∧ v.firmware = true →
          ended = (.error (.halt 1 false), Machine.thePlatform.set m''.platform.shutDown m'')) ∧
        (¬(v.attached = true ∧ v.firmware = true) →
          ended.2.platform.shutdowns = v.shutdowns)) := by
  obtain ⟨m₁, hclosed, hm₁⟩ := exists_printed_of_calm quiet sink
    ["[ERROR] ", e.line, " -> ", o.name, "\n"] (h.recorded e o)
  refine ⟨m₁, hclosed, hm₁, ?_⟩
  intro ended
  have hended : ended = Exec.runOn (do
      if e.isFatal && !o.helped then s.halt e
      return o) m₁ := Closed.runOn_conclude hclosed (h.passes.runOn_record e o) client rfl
  refine ⟨fun hhelped => ?_, fun hhelped => ?_⟩
  · rw [hended, fatal, hhelped]
    rfl
  · replace hended : ended = Exec.runOn (do
        let _ ← s.halt (α := PUnit) e
        return o) m₁ := by
      rw [hended, fatal, hhelped]
      rfl
    obtain ⟨m₂, hwords, hm₂, hfirmware, hnone⟩ := halt_of_calm (α := PUnit) quiet e hm₁
    refine ⟨m₂, hwords, hm₂, ?_⟩
    -- what the halt comes to is what the report comes to
    cases hhalt : Exec.runOn (s.halt (α := PUnit) e) m₁ with
    | mk r m₃ =>
      cases r with
      | ok a => exact absurd hhalt (s.halt_stops e m₁ a m₃)
      | error stop =>
        rw [Exec.runOn_bind_of_error hhalt] at hended
        rw [hhalt] at hfirmware hnone
        rw [hended]
        refine ⟨fun r h => (by cases h), fun hreaches => ?_, hnone⟩
        obtain ⟨hstop, hleft⟩ := Prod.mk.inj (hfirmware hreaches)
        rw [Except.error.inj hstop, hleft]

/-- **Panic mode follows the fatal errors.**  Take any program that reports errors of any level,
resets panic mode and looks at it, in handlers of errors and in observers of the console as well,
and let it start with panic mode clear and an empty journal.  Whenever it looks, and at its end,
panic mode is latched exactly if a fatal error was reported since the last reset.

Let a hart that need not wait for another one report an error, and let those who observe the console
return and leave the lock of the site, the number of the hart and the firmware alone.

While panic mode is latched, the report returns that the error was ignored.  All that becomes of the
machine is that the error is noted, put into the log as ignored and told of in a line; no handler is
run, so it would be the same with other handlers.

If the error is fatal and panic mode is clear, then it is noted and panic mode is latched, and
nothing else has happened yet on `m₁`.  The latch is announced, which runs no handler either, and
the entries that want the error are read.  As long as each handler returns when its turn comes,
there are two ways on, and on both of them the outcome first goes into the log and a line tells of
it.  If somebody helped, then the report returns, and has not asked for a shutdown.  If nobody did,
it never returns: after its last words it asks the firmware, if there is any, to shut down for a
failure, once, and that is the end. -/
theorem panic_mode_follows_fatal_errors (s : ErrorSite σ) (quiet : s.Quiet) :
    (∀ (j : s.Journal) (α : Type) (x : Exec σ α), Journal.Reporting j x → ∀ m : Machine σ,
      j.moments.get m = [] → (s.table.get m).panicMode = false →
      let m' := (Exec.runOn x m).2
      (s.table.get m').panicMode = fatalSinceReset (j.moments.get m') ∧
        Truthful (j.moments.get m')) ∧
    ∀ (e : SystemError) (m : Machine σ), s.Passes m →
      ((s.table.get m).panicMode = true →
        ∃ m', s.PutAside e m m' ∧ m'.platform.shutdowns = m.platform.shutdowns ∧
          ∀ other : Client σ, other.written = client.written →
            Exec.runOn (@handle σ other s e) m = (.ok .ignored, m')) ∧
      ((s.table.get m).panicMode = false → e.isFatal = true →
        let sink := s.sink m
        let m₁ := s.latched (s.raised e m)
        ∃ m₂ entries m₃,
          Exec.runOn (s.receive e) m = Exec.runOn (do
            s.announceLatch e sink
            return some sink) m₁ ∧
          (s.table.get m₁).panicMode = true ∧
          s.Received e m m₂ ∧
          (∀ other : Client σ, other.written = client.written →
            Exec.runOn (@receive σ other s e) m = (.ok (some sink), m₂)) ∧
          s.Picked e sink entries m₂ m₃ ∧
          m₃.platform.shutdowns = m.platform.shutdowns ∧
          (Throughout (ErrorEntry.Answers s e) ErrorOutcome.Claims (ErrorEntry.ReturnsIn s e)
              entries m₃ →
            ∃ calls last m₄,
              Linked (ErrorEntry.Answers s e) m₃ calls last ∧
              UpTo ErrorOutcome.Claims entries calls ∧
              let outcome := outcomeOf (calls.map Call.answer)
              let ended := Exec.runOn (s.handle e) m
              let helped := ∃ c ∈ calls, c.answer = .handled ∨ c.answer = .partially
              let reaches :=
                (s.standing last).attached = true ∧ (s.standing last).firmware = true
              s.Closed e sink outcome last m₄ ∧
              m₄.platform.shutdowns = last.platform.shutdowns ∧
              (helped → ended = (.ok outcome, m₄)) ∧
              (¬helped → ∃ m₅, s.LastWords e m₄ m₅ ∧
                m₅.platform.shutdowns = last.platform.shutdowns ∧
                (∀ r, ended.1 ≠ .ok r) ∧
                (reaches → ended =
                  (.error (.halt 1 false), Machine.thePlatform.set m₅.platform.shutDown m₅)) ∧
                (¬reaches → ended.2.platform.shutdowns = last.platform.shutdowns)))) := by
  refine ⟨fun j α x hx m hempty hclear => ?_, fun e m hpasses => ⟨fun latched => ?_, ?_⟩⟩
  · have hstart : j.Consistent m := by
      refine ⟨?_, ?_⟩
      · rw [hclear, hempty]
        rfl
      · rw [hempty]
        trivial
    have hend := (Journal.reporting_upholds hx).after hstart
    exact ⟨hend.latch, hend.truthful⟩
  · obtain ⟨m', haside, hm', hrun⟩ := handle_of_latched quiet e ⟨hpasses, rfl⟩ latched
    exact ⟨m', haside, congrArg Standing.shutdowns hm'.standing, hrun⟩
  · intro clear fatal sink m₁
    obtain ⟨m₂, entries, m₃, hreceived, hpicked, hm₃, hwalk⟩ :=
      handle_of_clear quiet e ⟨hpasses, rfl⟩ clear
    refine ⟨m₂, entries, m₃, runOn_receive_of_fatal clear fatal, ?_, hreceived,
      hreceived.runOn_receive clear, hpicked, congrArg Standing.shutdowns hm₃.standing,
      fun hreturn => ?_⟩
    · exact congrArg (·.panicMode) (s.table.get_set _ _)
    obtain ⟨calls, last, hlinked, hupTo⟩ := exists_walk hreturn
    obtain ⟨hlast, hhandle⟩ := hwalk calls last hlinked hupTo
    obtain ⟨m₄, hclosed, hm₄, hreturns, hends⟩ :=
      conclude_of_calm quiet fatal sink (outcomeOf (calls.map Call.answer)) hlast
    have hhelped : (outcomeOf (calls.map Call.answer)).helped = true ↔
        ∃ c ∈ calls, c.answer = .handled ∨ c.answer = .partially := by
      simp only [helped_outcomeOf_iff, List.mem_map, exists_exists_and_eq_and]
    refine ⟨calls, last, m₄, hlinked, hupTo, hclosed,
      congrArg Standing.shutdowns hm₄.standing, ?_, ?_⟩
    · rw [hhandle]
      exact fun helped => hreturns (hhelped.2 helped)
    · rw [hhandle]
      intro unhelped
      obtain ⟨m₅, hwords, hm₅, hend⟩ :=
        hends (eq_false_of_ne_true fun h => unhelped (hhelped.1 h))
      exact ⟨m₅, hwords, congrArg Standing.shutdowns hm₅.standing, hend⟩

end ErrorSite

/-- A client that keeps a journal. -/
structure Watcher where
  moments : List Moment := []

namespace Watcher

/-- The journal of this client. -/
def journal : ErrorSite.Journal (ErrorSite.system (σ := Watcher)) where
  moments := Machine.theClients.comp { get := (·.moments), set a w := { w with moments := a } }

/-- A fatal error of the memory. -/
def error : SystemError where
  code := .make .memory .fatal 2

/-- Looks whether panic mode is latched. -/
def look : Exec Watcher Bool := do
  let latched ← ErrorSite.system.isPanicMode
  journal.note (.seen latched)
  return latched

/-- Reports the error to somebody. -/
def report (client : Client Watcher) : Exec Watcher ErrorOutcome := do
  journal.note (.reported error)
  @ErrorSite.handle Watcher client ErrorSite.system error

/-- Somebody whose handlers help with nothing. -/
@[reducible] def bystander : Client Watcher where
  trapHandler _ := return .pass
  errorHandler _ _ := return .unhandled
  command _ _ _ := return 0
  written _ := return

/-- Handlers that look, report the error again, and help with it. -/
instance : Client Watcher where
  trapHandler _ := return .pass
  errorHandler _ _ := do
    let _ ← look
    let _ ← report bystander
    return .partially
  command _ _ _ := return 0
  written _ := return

/-- Resets panic mode. -/
def restart : Exec Watcher Unit := do
  journal.note .reset
  ErrorSite.system.reset

/-- Reports the error, looks, resets panic mode and looks again. -/
def program : Exec Watcher Bool := do
  let _ ← report inferInstance
  let _ ← look
  restart
  look

/-- A machine that knows its platform and has no error handlers. -/
def machine : Machine Watcher where
  system.errors := { attached := true }
  clients := {}

/-- The machine with one error handler. -/
def guardedMachine : Machine Watcher :=
  { machine with
    system.errors := (machine.system.errors.add ⟨some (.client 0), some [1], 0, none, none⟩).2 }

theorem reporting_program : ErrorSite.Journal.Reporting journal program := by
  have hpure {α : Type} (a : α) : ErrorSite.Journal.Reporting journal (pure a) := .other (.pure a)
  have hbystander : ErrorSite.Journal.Reporting journal (report bystander) :=
    .report bystander (fun _ => hpure ()) (fun _ _ => hpure _) error
  have hhandler (n : Nat) (e : SystemError) :
      ErrorSite.Journal.Reporting journal (Client.errorHandler (σ := Watcher) n e) :=
    .bind .look fun _ => .bind hbystander fun _ => hpure _
  have hreport : ErrorSite.Journal.Reporting journal (report inferInstance) :=
    .report _ (fun _ => hpure ()) hhandler error
  exact .bind hreport fun _ => .bind .look fun _ => .bind .reset fun _ => .look

theorem quiet : ErrorSite.Quiet (ErrorSite.system (σ := Watcher)) := fun _ _ => .pure ()

end Watcher

open Watcher in
/-- The first report latches panic mode and is helped with, and the one from within its handler is
ignored.  Where nobody can help, the system ends with one request to shut down. -/
theorem watcher_sees_what_was_reported :
    (Exec.runOn program guardedMachine).2.clients.moments =
      [.seen false, .reset, .seen true, .reported error, .seen true, .reported error] ∧
    Truthful (Exec.runOn program guardedMachine).2.clients.moments ∧
    (∃ m', Exec.runOn (ErrorSite.system.handle error)
      { machine with system.errors.panicMode := true } = (.ok .ignored, m')) ∧
    let ended := Exec.runOn (ErrorSite.system.handle error) machine
    ended.1 = .error (.halt 1 false) ∧ ended.2.platform.shutdowns = 1 := by
  obtain ⟨htold, hreports⟩ := ErrorSite.system.panic_mode_follows_fatal_errors quiet
  have passes : ErrorSite.system.Passes machine := nofun
  refine ⟨rfl, (htold journal _ _ reporting_program guardedMachine rfl rfl).2, ?_, ?_⟩
  · have hlatched : ErrorSite.system.Passes
        { machine with system.errors.panicMode := true } := nofun
    obtain ⟨m', -, -, hrun⟩ := (hreports error _ hlatched).1 rfl
    exact ⟨m', hrun _ rfl⟩
  · obtain ⟨m₂, entries, m₃, -, -, hreceived, -, hpicked, hshutdowns, hends⟩ :=
      (hreports error machine passes).2 rfl rfl
    -- nobody takes the error, so nobody is called
    obtain rfl : (Exec.runOn (ErrorSite.system.receive error) machine).2 = m₂ :=
      congrArg Prod.snd (hreceived.runOn_receive rfl inferInstance rfl)
    obtain ⟨hentries, hleft⟩ := hpicked
    obtain rfl : entries = [] := hentries
    obtain ⟨calls, last, m₄, hlinked, hupTo, -, -, -, hend⟩ :=
      hends fun calls _ _ _ _ _ heq => by simp at heq
    obtain rfl := hupTo.eq_nil
    cases hlinked
    have hreaches : (ErrorSite.system.standing m₃).attached = true ∧
        (ErrorSite.system.standing m₃).firmware = true := by
      rw [hleft]
      exact ⟨rfl, rfl⟩
    obtain ⟨m₅, -, hkept, -, hhalted, -⟩ := hend (by simp)
    refine ⟨congrArg Prod.fst (hhalted hreaches), ?_⟩
    rw [hhalted hreaches]
    exact congrArg (· + 1) (hkept.trans hshutdowns)

end Supervisor
