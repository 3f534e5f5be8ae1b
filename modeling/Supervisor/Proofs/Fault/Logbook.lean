/-
The log of errors.

A report comes to its outcome, puts that into the log, and closes with a line on the console.  It
asks for the lock of its site to do so.  A hart that holds the lock already, since it is printing
the log or the handlers at that moment, goes on without: the error is not in the log then, and
nothing else tells.

* `handle_eq` — a report decides, records and closes;
* `handle_records` — what a report that returned has put into the log;
* `LogMoment`, `kept` — what is told by a logbook, and what the log must hold then;
* `Logbook.Keeping` — the programs that report errors, clear the log and write, handlers and
  observers of the console among them;
* `log_holds_what_was_kept` — the log holds the newest records of those reports that found the lock
  free, in the order in which they came to their outcomes.

Design notes: a logbook is a part of the machine that no site touches.  A program that keeps one
notes each report at the moment when it asks for the lock, since its handlers have reported before
and the observers of its last line may report after that.
-/
import Supervisor.Proofs.Fault.Upkeep
import Supervisor.Proofs.Rings

namespace Supervisor

variable {σ : Type}

/-! ### The parts of a report -/

namespace ErrorSite

/-- A change of the log under the lock of its site is made if nobody holds the lock.  Otherwise
nothing happens, and the hart goes on or waits. -/
theorem runOn_locked_update (s : ErrorSite σ) (f : ErrorLog → ErrorLog) (m : Machine σ) :
    ∃ p, (s.isTaken m = false ∧
        Exec.runOn (s.locked (s.log.update f) (return)) m = (.ok (), s.table.set
          { s.table.get m with lock := ⟨false, noOwner⟩, log := f (s.log.get m) }
          (Machine.thePlatform.set p m))) ∨
      (s.isTaken m = true ∧ ∃ r, (r = .ok () ∨ r = .error .waits) ∧
        Exec.runOn (s.locked (s.log.update f) (return)) m = (r, Machine.thePlatform.set p m)) := by
  cases htaken : s.isTaken m with
  | false =>
    obtain ⟨_, p, hasked⟩ := s.asksHart_currentHart m
    rw [runOn_currentHart] at hasked
    have hmachine : s.asked m = Machine.thePlatform.set p m := congrArg Prod.snd hasked
    refine ⟨p, .inl ⟨rfl, ?_⟩⟩
    rw [s.runOn_locked_update_of_free f _ htaken, hmachine]
  | true =>
    obtain ⟨_, r, p, -, hr, hrun⟩ := runOn_locked_of_taken s.asksHart_currentHart
      s.lock_apart_platform (s.log.update f) () htaken
    exact ⟨p, .inr ⟨rfl, r, hr.imp_left And.right, hrun⟩⟩

variable [Client σ]

/-- A report up to its outcome; there is none if panic mode was latched before. -/
def decide (s : ErrorSite σ) (e : SystemError) : Exec σ (Sink × Option ErrorOutcome) := do
  let sink ← s.console
  s.note .errorRaised e.source.name e.code.raw.toUInt64
  if (← s.table.read).panicMode then return (sink, none)
  if e.isFatal then s.latch e sink
  let entries ← s.takers e sink
  return (sink, some (← offer e entries .unhandled))

/-- A report after it has asked for the lock of the log. -/
def close (s : ErrorSite σ) (e : SystemError) (sink : Sink) :
    Option ErrorOutcome → Exec σ ErrorOutcome
  | none => do
    putLine sink ["[PANIC] ignoring error while in panic mode: ", e.line, "\n"]
    return .ignored
  | some outcome => do
    putLine sink ["[ERROR] ", e.line, " -> ", outcome.name, "\n"]
    if e.isFatal && !outcome.helped then s.halt e
    return outcome

/-- A report decides, records and closes. -/
theorem handle_eq (s : ErrorSite σ) (e : SystemError) :
    s.handle e = (do
      let decided ← s.decide e
      s.record e (decided.2.getD .ignored)
      s.close e decided.1 decided.2) := by
  rw [handle, receive, decide]
  simp only [bind_assoc]
  refine congrArg (_ >>= ·) (funext fun sink => congrArg (_ >>= ·) (funext fun _ =>
    congrArg (_ >>= ·) (funext fun t => ?_)))
  cases t.panicMode with
  | true =>
    simp only [if_true, bind_assoc, pure_bind]
    rfl
  | false =>
    cases e.isFatal with
    | true =>
      simp only [if_true, bind_assoc, pure_bind, Bool.false_eq_true, if_false]
      rfl
    | false =>
      simp only [bind_assoc, pure_bind, Bool.false_eq_true, if_false]
      rfl

/-- What is returned in the end is what was decided. -/
theorem outcome_of_close {s : ErrorSite σ} {e : SystemError} {sink : Sink}
    {outcome : Option ErrorOutcome} {m m' : Machine σ} {r : ErrorOutcome}
    (returned : Exec.runOn (s.close e sink outcome) m = (.ok r, m')) :
    r = outcome.getD .ignored := by
  cases outcome with
  | none =>
    obtain ⟨_, m₁, -, hrest⟩ := Exec.of_runOn_bind_eq_ok returned
    rw [Exec.runOn_pure] at hrest
    exact (Except.ok.inj (congrArg Prod.fst hrest)).symm
  | some o =>
    obtain ⟨_, m₁, -, hrest⟩ := Exec.of_runOn_bind_eq_ok returned
    split at hrest
    · obtain ⟨_, m₂, hhalt, -⟩ := Exec.of_runOn_bind_eq_ok hrest
      exact absurd hhalt (s.halt_stops e _ _ _)
    · rw [Exec.runOn_pure] at hrest
      exact (Except.ok.inj (congrArg Prod.fst hrest)).symm

namespace Unseen

variable {A : Type} {s : ErrorSite σ} {view : Machine σ → A} {I : Machine σ → Prop}
  (h : s.Unseen view) (hI : ∀ m m', view m' = view m → I m → I m')
  (written : ∀ text, Exec.Upholds (Client.written (σ := σ) text) I I)

include h hI written

/-- Up to its outcome, a report upholds what its handlers and its observers do. -/
theorem decide (latch : ∀ m, view (s.table.set { s.table.get m with panicMode := true } m) = view m)
    (handlers : ∀ n e, Exec.Upholds (Client.errorHandler (σ := σ) n e) I I) (e : SystemError) :
    Exec.Upholds (s.decide e) I I := by
  have hbears := h.bears hI written
  have hlatch (sink : Sink) : Exec.Upholds (s.latch e sink) I I :=
    .bind (.update fun m => hI _ _ (latch m)) fun _ => hbears.announceLatch e sink
  have hrest (sink : Sink) : Exec.Upholds (do
      let entries ← s.takers e sink
      return (sink, some (← ErrorSite.offer e entries .unhandled))) I I :=
    .bind (hbears.takers e sink) fun entries =>
      .bind (h.offer hI written handlers e entries _) fun _ => .pure _
  exact .bind (s.console_upholds I I) fun sink => .bind (hbears.note _ _ _) fun _ =>
    .bind (.read _) fun t => .ite (.pure _) (.ite (.bind (hlatch sink) fun _ => hrest sink)
      (hrest sink))

/-- After its outcome, a report upholds what its observers do. -/
theorem close (e : SystemError) (sink : Sink) (outcome : Option ErrorOutcome) :
    Exec.Upholds (s.close e sink outcome) I I := by
  have hbears := h.bears hI written
  cases outcome with
  | none => exact .bind (hbears.line _ _) fun _ => .pure _
  | some o =>
    have hhalt : Exec.Upholds (s.halt (α := PUnit) e) I I := h.halt hI written e
    exact .bind (hbears.line _ _) fun _ => .ite (.bind hhalt fun _ => .pure o) (.pure o)

end Unseen

omit [Client σ] in
theorem log_set_table {s : ErrorSite σ} {t : ErrorTable} {m : Machine σ} :
    s.log.get (s.table.set t m) = t.log := congrArg ErrorTable.log (Part.get_set _ _ _)

omit [Client σ] in
/-- The log is all that is seen of a site, if it is no part of the lock of the trap system. -/
theorem unseen_log {s : ErrorSite σ}
    (systemLock : ∀ l m, s.log.get (ErrorSite.system.lock.set l m) = s.log.get m) :
    s.Unseen s.log.get where
  platform p m := congrArg ErrorTable.log (s.table_platform p m)
  trace t m := congrArg ErrorTable.log (s.table_trace t m)
  lock _ _ := log_set_table
  systemLock := systemLock

/-- What a report that returned has put into the log: one record with its error and its outcome, at
the moment `m₁` when it had come to that and nobody held the lock, and nothing if the hart held the
lock itself.  Before and after that the log changes by nothing but its handlers and its
observers. -/
theorem handle_records {s : ErrorSite σ}
    (systemLock : ∀ l m, s.log.get (ErrorSite.system.lock.set l m) = s.log.get m) {e : SystemError}
    {m m' : Machine σ} {r : ErrorOutcome} (returned : Exec.runOn (s.handle e) m = (.ok r, m')) :
    ∃ decided m₁ m₂, Exec.runOn (s.decide e) m = (.ok decided, m₁) ∧
      Exec.runOn (s.close e decided.1 decided.2) m₂ = (.ok r, m') ∧
      (s.log.get m₂ = if s.isTaken m₁ then s.log.get m₁
        else (s.log.get m₁).push ⟨e, r.helped, r⟩) ∧
      ∀ (R : Machine σ → Machine σ → Prop) [IsPreorder (Machine σ) R],
        (∀ m m', s.log.get m' = s.log.get m → R m m') →
        (∀ text, Exec.Leads (Client.written (σ := σ) text) R) →
        (∀ n e, Exec.Leads (Client.errorHandler (σ := σ) n e) R) → R m m₁ ∧ R m₂ m' := by
  rw [handle_eq] at returned
  obtain ⟨decided, m₁, hdecide, hrest⟩ := Exec.of_runOn_bind_eq_ok returned
  obtain ⟨_, m₂, hrecord, hclose⟩ := Exec.of_runOn_bind_eq_ok hrest
  have houtcome : r = decided.2.getD .ignored := outcome_of_close hclose
  refine ⟨decided, m₁, m₂, hdecide, hclose, ?_, fun R _ hR written handlers => ?_⟩
  · rw [← houtcome] at hrecord
    obtain ⟨p, ⟨hfree, hrun⟩ | ⟨htaken, ended, -, hrun⟩⟩ :=
      s.runOn_locked_update (·.push ⟨e, r.helped, r⟩) m₁
    · obtain rfl := congrArg Prod.snd (hrecord.symm.trans hrun)
      rw [hfree, if_neg Bool.false_ne_true]
      exact log_set_table
    · obtain rfl := congrArg Prod.snd (hrecord.symm.trans hrun)
      rw [htaken, if_pos rfl]
      exact congrArg ErrorTable.log (s.table_platform p m₁)
  · have hunseen := unseen_log systemLock
    have hlog (start : Machine σ) : ∀ m m', s.log.get m' = s.log.get m → R start m → R start m' :=
      fun m m' hsame hstart => trans_of R hstart (hR m m' hsame)
    have hwritten (start : Machine σ) (text : Text) :
        Exec.Upholds (Client.written (σ := σ) text) (R start) (R start) := .of_leads (written text)
    constructor
    · have hup := hunseen.decide (hlog m) (hwritten m)
        (fun _ => log_set_table)
        (fun n e => .of_leads (handlers n e)) e
      have hled := hup.after (refl_of R m)
      rwa [hdecide] at hled
    · have hled := (hunseen.close (hlog m₂) (hwritten m₂) e decided.1 decided.2).after
        (refl_of R m₂)
      rwa [hclose] at hled

/-! ### What a logbook tells -/

end ErrorSite

/-- What becomes of the log. -/
inductive LogMoment where
  /-- A report has come to its outcome, and goes into the log or not. -/
  | settled (record : LogRecord) (kept : Bool)
  /-- The log is emptied. -/
  | cleared
deriving Repr, DecidableEq

/-- The records that went into the log since it was emptied, oldest first; the newest moment stands
first. -/
def kept : List LogMoment → List LogRecord
  | [] => []
  | .settled record true :: older => kept older ++ [record]
  | .settled _ false :: older => kept older
  | .cleared :: _ => []

namespace ErrorSite

/-- A logbook stands where neither the site nor the lock of the trap system touches it. -/
structure Logbook (s : ErrorSite σ) where
  moments : Part (Machine σ) (List LogMoment)
  moments_table : moments.Apart s.table := by exact fun _ _ => rfl
  moments_trace : moments.Apart s.trace := by exact fun _ _ => rfl
  moments_platform : moments.Apart Machine.thePlatform := by exact fun _ _ => rfl
  moments_lock : moments.Apart ErrorSite.system.lock := by exact fun _ _ => rfl
  table_moments : s.table.Apart moments := by exact fun _ _ => rfl
  log_lock (l : Spinlock) (m : Machine σ) :
    s.log.get (ErrorSite.system.lock.set l m) = s.log.get m := by exact fun _ _ => rfl

namespace Logbook

variable {s : ErrorSite σ}

/-- Puts a moment into the logbook. -/
def note (b : s.Logbook) (x : LogMoment) : Exec σ Unit := b.moments.update (x :: ·)

def view (b : s.Logbook) (m : Machine σ) : ErrorLog × List LogMoment :=
  (s.log.get m, b.moments.get m)

/-- Puts an error into the log, and notes whether it got there. -/
def record (b : s.Logbook) (e : SystemError) (outcome : ErrorOutcome) : Exec σ Unit := do
  let m ← getThe (Machine σ)
  s.record e outcome
  b.note (.settled ⟨e, outcome.helped, outcome⟩ (!s.isTaken m))

/-- Empties the log, and notes it if that was done. -/
def clear (b : s.Logbook) : Exec σ Unit := do
  let m ← getThe (Machine σ)
  s.clearLog
  if !s.isTaken m then b.note .cleared

/-- Reports an error, and notes when that comes to its outcome. -/
def report (b : s.Logbook) (client : Client σ) (e : SystemError) : Exec σ ErrorOutcome := do
  let decided ← @decide σ client s e
  b.record e (decided.2.getD .ignored)
  @close σ client s e decided.1 decided.2

/-- Programs that report errors, empty the log and write to the console, and note each report and
each emptying in the logbook.  Some of that may be done under a lock, also under that of the log.
The handlers and the observers are such programs as well. -/
inductive Keeping (b : s.Logbook) : {α : Type} → Exec σ α → Prop
  /-- Something that is not concerned with the log. -/
  | other {α : Type} {x : Exec σ α} (h : Exec.Keeps x b.view) : Keeping b x
  | bind {α β : Type} {x : Exec σ α} {f : α → Exec σ β} (hx : Keeping b x)
      (hf : ∀ a, Keeping b (f a)) : Keeping b (x >>= f)
  | tryCatch {α : Type} {x : Exec σ α} {h : Stop → Exec σ α} (hx : Keeping b x)
      (hh : ∀ e, Keeping b (h e)) : Keeping b (tryCatch x h)
  | locked {α : Type} {lock : Part (Machine σ) Spinlock}
      (hlock : ∀ l m, b.view (lock.set l m) = b.view m) (core : UInt32) {body refused : Exec σ α}
      (hbody : Keeping b body) (hrefused : Keeping b refused) :
      Keeping b (withLock lock core body refused)
  | write (client : Client σ) (written : ∀ text, Keeping b (client.written text)) (sink : Sink)
      (t : Text) : Keeping b (@puts σ client sink t)
  | clear : Keeping b b.clear
  | report (client : Client σ) (written : ∀ text, Keeping b (client.written text))
      (handlers : ∀ n e, Keeping b (client.errorHandler n e)) (e : SystemError) :
      Keeping b (b.report client e)

/-- The log holds what the logbook tells. -/
structure Agrees (b : s.Logbook) (m : Machine σ) : Prop where
  eq : s.log.get m = (kept (b.moments.get m)).foldl ErrorLog.push {}

variable {b : s.Logbook} {m m' : Machine σ}

theorem Agrees.of_view (h : b.view m' = b.view m) (hm : b.Agrees m) : b.Agrees m' := by
  have hlog : s.log.get m' = s.log.get m := congrArg Prod.fst h
  have hmoments : b.moments.get m' = b.moments.get m := congrArg Prod.snd h
  refine ⟨?_⟩
  rw [hlog, hmoments]
  exact hm.eq

theorem view_set_table {t : ErrorTable} (h : t.log = s.log.get m) :
    b.view (s.table.set t m) = b.view m := by
  rw [view, view, log_set_table, b.moments_table t m, h]

theorem unseen : s.Unseen b.view where
  platform p m := by
    have hlog : s.log.get (Machine.thePlatform.set p m) = s.log.get m :=
      congrArg ErrorTable.log (s.table_platform p m)
    rw [view, view, hlog, b.moments_platform p m]
  trace t m := by
    have hlog : s.log.get (s.trace.set t m) = s.log.get m :=
      congrArg ErrorTable.log (s.table_trace t m)
    rw [view, view, hlog, b.moments_trace t m]
  lock _ _ := view_set_table rfl
  systemLock l m := by rw [view, view, b.log_lock l m, b.moments_lock l m]

/-- What a change of the log under its lock does to the log and the logbook. -/
theorem locked_update_cases (b : s.Logbook) (f : ErrorLog → ErrorLog) (m : Machine σ) :
    (s.isTaken m = false ∧ ∃ m₁, Exec.runOn (s.locked (s.log.update f) (return)) m = (.ok (), m₁) ∧
        s.log.get m₁ = f (s.log.get m) ∧ b.moments.get m₁ = b.moments.get m) ∨
      (s.isTaken m = true ∧ ∃ m₁, b.view m₁ = b.view m ∧
        (Exec.runOn (s.locked (s.log.update f) (return)) m = (.ok (), m₁) ∨
          Exec.runOn (s.locked (s.log.update f) (return)) m = (.error .waits, m₁))) := by
  obtain ⟨p, ⟨hfree, hrun⟩ | ⟨htaken, r, hr, hrun⟩⟩ := s.runOn_locked_update f m
  · refine .inl ⟨hfree, _, hrun, log_set_table, ?_⟩
    rw [b.moments_table, b.moments_platform]
  · refine .inr ⟨htaken, _, unseen.platform p m, ?_⟩
    rcases hr with rfl | rfl
    · exact .inl hrun
    · exact .inr hrun

/-- A note keeps the logbook right if the log is as the note tells. -/
theorem agrees_note {x : LogMoment}
    (h : s.log.get m = (kept (x :: b.moments.get m)).foldl ErrorLog.push {}) :
    b.Agrees (Exec.runOn (b.note x) m).2 := by
  show b.Agrees (b.moments.set (x :: b.moments.get m) m)
  have hlog : s.log.get (b.moments.set (x :: b.moments.get m) m) = s.log.get m :=
    congrArg ErrorTable.log (b.table_moments _ m)
  refine ⟨?_⟩
  rw [hlog, Part.get_set, h]

theorem upholds_record (e : SystemError) (o : ErrorOutcome) :
    Exec.Upholds (b.record e o) b.Agrees b.Agrees := by
  intro m hm
  rw [record, Exec.runOn_bind_of_ok (Exec.runOn_get m)]
  rcases b.locked_update_cases (·.push ⟨e, o.helped, o⟩) m with
    ⟨hfree, m₁, hrun, hlog, hmoments⟩ | ⟨htaken, m₁, hview, hrun⟩
  · rw [ErrorSite.record, Exec.runOn_bind_of_ok hrun, hfree]
    refine agrees_note ?_
    rw [hlog, hmoments, Bool.not_false, kept, List.foldl_append, ← hm.eq]
    rfl
  · have hm₁ := hm.of_view hview
    rcases hrun with hrun | hrun
    · rw [ErrorSite.record, Exec.runOn_bind_of_ok hrun, htaken]
      exact agrees_note hm₁.eq
    · rw [ErrorSite.record, Exec.runOn_bind_of_error hrun]
      exact hm₁

theorem upholds_clear : Exec.Upholds b.clear b.Agrees b.Agrees := by
  intro m hm
  rw [clear, Exec.runOn_bind_of_ok (Exec.runOn_get m)]
  rcases b.locked_update_cases (fun _ => {}) m with
    ⟨hfree, m₁, hrun, hlog, hmoments⟩ | ⟨htaken, m₁, hview, hrun⟩
  · rw [clearLog, Exec.runOn_bind_of_ok hrun, hfree]
    exact agrees_note hlog
  · have hm₁ := hm.of_view hview
    rcases hrun with hrun | hrun
    · rw [clearLog, Exec.runOn_bind_of_ok hrun, htaken]
      exact hm₁
    · rw [clearLog, Exec.runOn_bind_of_error hrun]
      exact hm₁

/-- A report keeps the logbook right, if its handlers and observers do. -/
theorem upholds_report (client : Client σ)
    (written : ∀ text, Exec.Upholds (client.written text) b.Agrees b.Agrees)
    (handlers : ∀ n e, Exec.Upholds (client.errorHandler n e) b.Agrees b.Agrees)
    (e : SystemError) : Exec.Upholds (b.report client e) b.Agrees b.Agrees := by
  have hagrees : ∀ m m', b.view m' = b.view m → b.Agrees m → b.Agrees m' := fun _ _ => .of_view
  have hlatch (m : Machine σ) :
      b.view (s.table.set { s.table.get m with panicMode := true } m) = b.view m :=
    view_set_table rfl
  exact .bind (unseen.decide hagrees written hlatch handlers e) fun decided =>
    .bind (upholds_record e _) fun _ => unseen.close hagrees written e _ _

/-- Programs that note what becomes of the log keep the logbook right, however they end. -/
theorem keeping_upholds {α : Type} {x : Exec σ α} (h : Keeping b x) :
    Exec.Upholds x b.Agrees b.Agrees := by
  have hagrees : ∀ m m', b.view m' = b.view m → b.Agrees m → b.Agrees m' := fun _ _ => .of_view
  induction h with
  | other hkeeps => exact .of_keeps hkeeps hagrees
  | bind _ _ ihx ihf => exact .bind ihx ihf
  | tryCatch _ _ ihx ihh => exact .tryCatch ihx ihh
  | locked hlock core _ _ ihbody ihrefused =>
    exact .withLock (fun l m => hagrees _ _ (hlock l m)) ihbody ihrefused core
  | write client _ sink t ihwritten =>
    exact @puts_upholds σ client _ _ ihwritten
      (fun t m => hagrees _ _ (unseen.platform (m.platform.write t) m)) sink t
  | clear => exact upholds_clear
  | report client _ _ e ihwritten ihhandlers =>
    exact upholds_report client ihwritten ihhandlers e

/-! ### Programs that keep a logbook -/

variable {α : Type}

namespace Keeping

theorem ite {c : Prop} [Decidable c] {x y : Exec σ α} (hx : Keeping b x) (hy : Keeping b y) :
    Keeping b (if c then x else y) := by
  split
  · exact hx
  · exact hy

theorem pure (a : α) : Keeping b (Pure.pure a : Exec σ α) := .other (.pure a)

theorem forM {β : Type} {f : β → Exec σ PUnit} (hf : ∀ a, Keeping b (f a)) (l : List β) :
    Keeping b (l.forM f) := by
  induction l with
  | nil => exact .pure _
  | cons a l ih => exact .bind (hf a) fun _ => ih

theorem underLock {body refused : Exec σ α} (hbody : Keeping b body)
    (hrefused : Keeping b refused) : Keeping b (s.locked body refused) := by
  have hhart : Exec.Keeps s.currentHart b.view :=
    .bind (.read _) fun _ => .ite (.change unseen.platform _) (.pure 0)
  exact .bind (.other hhart) fun core => .locked unseen.lock core hbody hrefused

theorem console : Keeping b s.console :=
  .bind (.other (.read _)) fun _ => .ite (.bind (.other .get) fun _ => .pure _) (.pure _)

variable (client : Client σ) (written : ∀ text, Keeping b (client.written text))

include written

theorem line (sink : Sink) (pieces : List Text) : Keeping b (@putLine σ client sink pieces) :=
  .write client written sink _

/-- Whoever prints the log keeps a logbook, if the observers do. -/
theorem printLog (count : Nat) : Keeping b (@ErrorSite.printLog σ client s count) := by
  have hfrom (sink : Sink) (count i : Nat) :
      Keeping b (@ErrorLog.printFrom σ client s.log sink count i) := by
    induction count generalizing i with
    | zero => exact .pure ()
    | succ count ih =>
      refine .bind (.other (.read _)) fun l => ?_
      split
      · exact .pure ()
      · exact .bind (line client written _ _) fun _ => ih (i + 1)
  have hprint (sink : Sink) : Keeping b (@ErrorLog.print σ client s.log count sink) := by
    cases sink with
    | nowhere => exact .pure ()
    | console =>
      exact .bind (.other (.read _)) fun l => .ite (.write client written .console _)
        (.bind (line client written _ _) fun _ => hfrom _ _ _)
  exact underLock (.bind console hprint) (.pure ())

/-- Whoever prints the handlers keeps a logbook, if the observers do. -/
theorem print : Keeping b (@ErrorSite.print σ client s) := by
  refine .bind console fun sink => underLock (.bind (.other (.read _)) fun t => ?_) (.pure ())
  exact .bind (line client written _ _) fun _ => forM (fun a => line client written _ _) _

end Keeping

end Logbook

/-- **The log holds what was kept.**  A report decides, records and closes.  If it returns, then
the log has got one record with its error and its outcome at the moment when it had come to that,
unless the hart held the lock of the log itself at that moment; then it has got nothing.  Apart from
that a report leaves the log to its handlers and its observers.

Take any program that reports errors, empties the log and writes to the console, in handlers of
errors and in observers of the console as well, and under the lock of the log as well, and let it
note each report when that has come to its outcome.  Then the log holds the newest of the records
that were kept since it was last emptied, in the order in which the reports came to their outcomes,
and tells how many there were: those of the reports that found the lock free. -/
theorem log_holds_what_was_kept [client : Client σ] (s : ErrorSite σ)
    (systemLock : ∀ l m, s.log.get (ErrorSite.system.lock.set l m) = s.log.get m) :
    (∀ e, s.handle e = (do
      let decided ← s.decide e
      s.record e (decided.2.getD .ignored)
      s.close e decided.1 decided.2)) ∧
    (∀ e m r m', Exec.runOn (s.handle e) m = (.ok r, m') →
      ∃ decided m₁ m₂, Exec.runOn (s.decide e) m = (.ok decided, m₁) ∧
        Exec.runOn (s.close e decided.1 decided.2) m₂ = (.ok r, m') ∧
        (s.log.get m₂ = if s.isTaken m₁ then s.log.get m₁
          else (s.log.get m₁).push ⟨e, r.helped, r⟩) ∧
        ∀ (R : Machine σ → Machine σ → Prop) [IsPreorder (Machine σ) R],
          (∀ m m', s.log.get m' = s.log.get m → R m m') →
          (∀ text, Exec.Leads (client.written text) R) →
          (∀ n e, Exec.Leads (client.errorHandler n e) R) → R m m₁ ∧ R m₂ m') ∧
    ∀ (b : s.Logbook) (α : Type) (x : Exec σ α), b.Keeping x → ∀ m, b.Agrees m →
      let m' := (Exec.runOn x m).2
      let records := kept (b.moments.get m')
      (s.log.get m').written = records.length ∧
        ∀ i, (s.log.get m').get? i = (records.drop (records.length - logCapacity))[i]? := by
  refine ⟨s.handle_eq, fun e m r m' => handle_records systemLock, fun b α x hx m hm => ?_⟩
  intro m' records
  have hlog : s.log.get m' = records.foldl ErrorLog.push {} :=
    ((Logbook.keeping_upholds hx).after hm).eq
  rw [hlog]
  refine ⟨?_, ErrorLog.get?_foldl_push records⟩
  rw [ErrorLog.written_foldl_push]

end ErrorSite

/-- A client that keeps a logbook. -/
structure Clerk where
  moments : List LogMoment := []

namespace Clerk

def logbook : ErrorSite.Logbook (ErrorSite.system (σ := Clerk)) where
  moments := Machine.theClients.comp { get := (·.moments), set a w := { w with moments := a } }

def error (code : UInt16) : SystemError where
  code := .make .memory .error code

/-- Somebody whose handlers help with nothing. -/
@[reducible] def bystander : Client Clerk where
  trapHandler _ := return .pass
  errorHandler _ _ := return .unhandled
  command _ _ _ := return 0
  written _ := return

/-- Handlers that report another error before they help, and an observer that reports one while the
log is printed. -/
instance : Client Clerk where
  trapHandler _ := return .pass
  errorHandler _ _ := do
    let _ ← logbook.report bystander (error 2)
    return .handled
  command _ _ _ := return 0
  written text := do
    if text = Text.ofString "No error records\n" then
      let _ ← logbook.report bystander (error 1)

def program : Exec Clerk ErrorOutcome := do
  ErrorSite.system.printLog 5
  logbook.report inferInstance (error 3)

/-- A machine that knows its platform, with one error handler. -/
def machine : Machine Clerk where
  system.errors :=
    (ErrorTable.add { attached := true } ⟨some (.client 0), some [1], 0, none, none⟩).2
  clients := {}

theorem keeping_program : logbook.Keeping program := by
  have hbystander (code : UInt16) : logbook.Keeping (logbook.report bystander (error code)) :=
    .report bystander (fun _ => .pure ()) (fun _ _ => .pure _) (error code)
  have hwritten (text : Text) : logbook.Keeping (Client.written (σ := Clerk) text) :=
    .ite (.bind (hbystander 1) fun _ => .pure ()) (.pure ())
  have hhandler (n : Nat) (e : SystemError) :
      logbook.Keeping (Client.errorHandler (σ := Clerk) n e) :=
    .bind (hbystander 2) fun _ => .pure _
  exact .bind (.printLog _ hwritten 5) fun _ => .report _ hwritten hhandler (error 3)

end Clerk

open Clerk in
/-- The first error is reported while the log is printed and does not get there.  The second one is
reported by the handler of the third, and stands before it. -/
theorem clerk_finds_what_was_kept :
    let ended := (Exec.runOn program machine).2
    let log := ended.system.errors.log
    ended.clients.moments =
      [.settled ⟨error 3, true, .handled⟩ true, .settled ⟨error 2, false, .unhandled⟩ true,
        .settled ⟨error 1, false, .unhandled⟩ false] ∧
    log.written = 2 ∧ log.get? 0 = some ⟨error 2, false, .unhandled⟩ ∧
    log.get? 1 = some ⟨error 3, true, .handled⟩ ∧
    ∃ m₁ m₂ m' : Machine Clerk,
      Exec.runOn (ErrorSite.system.handle (error 3)) machine = (.ok .handled, m') ∧
      ErrorSite.system.log.get m₂ =
        if ErrorSite.system.isTaken m₁ then ErrorSite.system.log.get m₁
        else (ErrorSite.system.log.get m₁).push ⟨error 3, true, .handled⟩ := by
  intro ended log
  have hmoments : logbook.moments.get ended =
      [.settled ⟨error 3, true, .handled⟩ true, .settled ⟨error 2, false, .unhandled⟩ true,
        .settled ⟨error 1, false, .unhandled⟩ false] := by decide +kernel
  have hrecords : kept (logbook.moments.get ended) =
      [⟨error 2, false, .unhandled⟩, ⟨error 3, true, .handled⟩] := congrArg kept hmoments
  obtain ⟨-, hcalls, hkept⟩ :=
    ErrorSite.log_holds_what_was_kept (ErrorSite.system (σ := Clerk)) fun _ _ => rfl
  obtain ⟨hwritten, hheld⟩ := hkept logbook _ _ keeping_program machine ⟨rfl⟩
  have hheld (i : Nat) : log.get? i =
      ([⟨error 2, false, .unhandled⟩, ⟨error 3, true, .handled⟩] : List LogRecord)[i]? :=
    (hheld i).trans
      (congrArg (fun l : List LogRecord => (l.drop (l.length - logCapacity))[i]?) hrecords)
  refine ⟨hmoments, hwritten.trans (congrArg List.length hrecords), hheld 0, hheld 1, ?_⟩
  have hreturned : (Exec.runOn (ErrorSite.system.handle (error 3)) machine).1 = .ok .handled := by
    decide +kernel
  obtain ⟨_, m₁, m₂, -, -, hlog, -⟩ := hcalls (error 3) machine .handled _ (Prod.ext hreturned rfl)
  exact ⟨m₁, m₂, _, Prod.ext hreturned rfl, hlog⟩

/-- A client that reports an error when it sees that the log is empty. -/
structure Auditor where
  /-- What became of that. -/
  answer : Option ErrorOutcome := none

namespace Auditor

/-- Somebody who looks on while an error is reported. -/
@[reducible] def bystander : Client Auditor where
  trapHandler _ := return .pass
  errorHandler _ _ := return .unhandled
  command _ _ _ := return 0
  written _ := return

instance : Client Auditor where
  trapHandler _ := return .pass
  errorHandler _ _ := return .unhandled
  command _ _ _ := return 0
  written text := do
    if text = Text.ofString "No error records\n" then
      let answer ← @ErrorSite.handle Auditor bystander ErrorSite.system
        { code := .make .memory .error 2 }
      modify fun m => { m with clients := ⟨some answer⟩ }

def machine : Machine Auditor where
  system.errors := { attached := true }
  clients := {}

end Auditor

/-- While the hart prints the log it holds the lock of the log.  A report that it makes then returns
and leaves no record. -/
theorem report_leaves_no_record :
    let after := (Exec.runOn (ErrorSite.system.printLog 5) Auditor.machine).2
    after.clients.answer = some .unhandled ∧ after.system.errors.log.written = 0 := by
  decide +kernel

end Supervisor
