/-
A journal of panic mode.

Whoever reports errors, resets panic mode or looks at it may keep a journal of that.  The journal
tells what anybody must see who looks: whether a fatal error was reported since the last reset.

* `Moment`, `fatalSinceReset`, `Truthful` — what is told by a journal;
* `ErrorSite.Journal` — a part of the machine that no site touches;
* `Journal.Reporting` — the programs that report, reset and look, handlers and observers of the
  console among them;
* `Journal.Consistent` — panic mode is what the journal tells, and was whenever somebody looked;
* `Journal.reporting_upholds` — these programs keep it so, however they end.

Design notes: the handlers and the observers belong to the report that calls them, so that those of
a report may in turn report errors.
-/
import Supervisor.Proofs.Fault.Reception
import Supervisor.Proofs.Fault.Upkeep

namespace Supervisor

variable {σ α β : Type}

/-! ### What a journal tells -/

/-- What is done to panic mode, and what is seen of it. -/
inductive Moment where
  /-- An error is reported. -/
  | reported (e : SystemError)
  /-- Panic mode is reset. -/
  | reset
  /-- Somebody looks whether panic mode is latched. -/
  | seen (latched : Bool)
deriving Repr, DecidableEq

/-- Whether a fatal error was reported since the last reset; the newest moment stands first. -/
def fatalSinceReset : List Moment → Bool
  | [] => false
  | .reported e :: older => e.isFatal || fatalSinceReset older
  | .reset :: _ => false
  | .seen _ :: older => fatalSinceReset older

/-- Whatever was seen was so. -/
def Truthful : List Moment → Prop
  | [] => True
  | .seen latched :: older => latched = fatalSinceReset older ∧ Truthful older
  | .reported _ :: older => Truthful older
  | .reset :: older => Truthful older

namespace ErrorSite

/-- A journal stands where neither the site nor the printing of the log touches it. -/
structure Journal (s : ErrorSite σ) where
  moments : Part (Machine σ) (List Moment)
  moments_table : moments.Apart s.table := by exact fun _ _ => rfl
  moments_trace : moments.Apart s.trace := by exact fun _ _ => rfl
  moments_platform : moments.Apart Machine.thePlatform := by exact fun _ _ => rfl
  moments_lock : moments.Apart ErrorSite.system.lock := by exact fun _ _ => rfl
  table_moments : s.table.Apart moments := by exact fun _ _ => rfl
  panicMode_lock (l : Spinlock) (m : Machine σ) :
    (s.table.get (ErrorSite.system.lock.set l m)).panicMode = (s.table.get m).panicMode := by
      exact fun _ _ => rfl

namespace Journal

variable {s : ErrorSite σ}

/-- Puts a moment into the journal. -/
def note (j : s.Journal) (x : Moment) : Exec σ Unit := j.moments.update (x :: ·)

/-- Panic mode and the journal. -/
def view (j : s.Journal) (m : Machine σ) : Bool × List Moment :=
  ((s.table.get m).panicMode, j.moments.get m)

/-- Programs that report errors, reset panic mode and look at it, and write each of that into the
journal.  The handlers and the observers of a report are such programs as well. -/
inductive Reporting (j : s.Journal) : {α : Type} → Exec σ α → Prop
  /-- Something that is not concerned with panic mode. -/
  | other {α : Type} {x : Exec σ α} (h : Exec.Keeps x j.view) : Reporting j x
  | bind {α β : Type} {x : Exec σ α} {f : α → Exec σ β} (hx : Reporting j x)
      (hf : ∀ a, Reporting j (f a)) : Reporting j (x >>= f)
  | tryCatch {α : Type} {x : Exec σ α} {h : Stop → Exec σ α} (hx : Reporting j x)
      (hh : ∀ e, Reporting j (h e)) : Reporting j (tryCatch x h)
  | look : Reporting j (do
      let latched ← s.isPanicMode
      j.note (.seen latched)
      return latched)
  | reset : Reporting j (do
      j.note .reset
      s.reset)
  | report (client : Client σ) (written : ∀ text, Reporting j (client.written text))
      (handlers : ∀ n e, Reporting j (client.errorHandler n e)) (e : SystemError) : Reporting j (do
      j.note (.reported e)
      @ErrorSite.handle σ client s e)

/-- Panic mode is what the journal tells, and was whenever somebody looked. -/
structure Consistent (j : s.Journal) (m : Machine σ) : Prop where
  latch : (s.table.get m).panicMode = fatalSinceReset (j.moments.get m)
  truthful : Truthful (j.moments.get m)

/-- The newest moment is a report that nothing has been done about. -/
structure Pending (j : s.Journal) (e : SystemError) (older : List Moment) (m : Machine σ) :
    Prop where
  newest : j.moments.get m = .reported e :: older
  latch : (s.table.get m).panicMode = fatalSinceReset older
  truthful : Truthful older

variable {j : s.Journal} {m m' : Machine σ}

theorem Consistent.of_view (h : j.view m' = j.view m) (hm : j.Consistent m) : j.Consistent m' := by
  have hlatch : (s.table.get m').panicMode = (s.table.get m).panicMode := congrArg Prod.fst h
  have hmoments : j.moments.get m' = j.moments.get m := congrArg Prod.snd h
  refine ⟨?_, ?_⟩
  · rw [hlatch, hmoments, hm.latch]
  · rw [hmoments]
    exact hm.truthful

/-! ### What is not concerned with panic mode -/

theorem view_set_platform (p : Platform) (m : Machine σ) :
    j.view (Machine.thePlatform.set p m) = j.view m := by
  rw [view, view, s.table_platform p m, j.moments_platform p m]

theorem view_set_trace (t : Trace) (m : Machine σ) : j.view (s.trace.set t m) = j.view m := by
  rw [view, view, s.table_trace t m, j.moments_trace t m]

theorem view_set_table {t : ErrorTable} {m : Machine σ}
    (h : t.panicMode = (s.table.get m).panicMode) : j.view (s.table.set t m) = j.view m := by
  rw [view, view, s.table.get_set t m, j.moments_table t m, h]

theorem view_set_systemLock (l : Spinlock) (m : Machine σ) :
    j.view (ErrorSite.system.lock.set l m) = j.view m := by
  rw [view, view, j.panicMode_lock l m, j.moments_lock l m]

theorem Consistent.upholds_keeps {x : Exec σ α} (hx : Exec.Keeps x j.view) :
    Exec.Upholds x j.Consistent j.Consistent := .of_keeps hx fun _ _ h hm => hm.of_view h

theorem unseen : s.Unseen j.view where
  platform := view_set_platform
  trace := view_set_trace
  lock _ _ := view_set_table rfl
  systemLock := view_set_systemLock

/-! ### The parts of a report -/

section

variable [Client σ]
  (written : ∀ text, Exec.Upholds (Client.written (σ := σ) text) j.Consistent j.Consistent)

include written

theorem upkeep : s.Upkeep j.Consistent j.Consistent where
  toBears := unseen.bears (fun _ _ => Consistent.of_view) written
  log _ _ h := h.of_view (view_set_table rfl)

theorem upholds_settle
    (handlers : ∀ n e, Exec.Upholds (Client.errorHandler (σ := σ) n e) j.Consistent j.Consistent)
    (e : SystemError) (sink : Sink) :
    Exec.Upholds (s.settle e sink) j.Consistent j.Consistent := by
  have hup := upkeep (j := j) written
  refine .bind (hup.takers e sink) fun entries =>
    .bind (unseen.offer (fun _ _ => Consistent.of_view) written handlers e entries _)
      fun outcome => ?_
  have hhalt : Exec.Upholds (s.halt (α := PUnit) e) j.Consistent j.Consistent :=
    unseen.halt (fun _ _ => Consistent.of_view) written e
  exact .bind (hup.record e outcome) fun _ => .bind (hup.line _ _) fun _ =>
    .ite (.bind hhalt fun _ => .pure outcome) (.pure outcome)

/-! ### A report -/

/-- Nobody else is called before panic mode is what the journal tells again. -/
theorem Pending.receive {e : SystemError} {older : List Moment} (h : j.Pending e older m) :
    ∃ m' rest, Exec.runOn (s.receive e) m = Exec.runOn rest m' ∧ j.Consistent m' ∧
      Exec.Upholds rest j.Consistent j.Consistent := by
  have hup := upkeep (j := j) written
  set m₁ := s.raised e m
  have hview : j.view m₁ = j.view m :=
    s.view_noted (fun _ => view_set_platform _ _) view_set_trace _ _ _ m
  have hnewest : j.moments.get m₁ = .reported e :: older :=
    (congrArg Prod.snd hview).trans h.newest
  have hpanic : (s.table.get m₁).panicMode = (s.table.get m).panicMode := congrArg Prod.fst hview
  have htruthful : Truthful (j.moments.get m₁) := by
    rw [hnewest]
    exact h.truthful
  have hlatch := h.latch
  cases hmode : (s.table.get m).panicMode with
  | true =>
    -- panic mode was latched before, and stays so whatever the error is
    refine ⟨m₁, _, runOn_receive_of_latched hmode e, ⟨?_, htruthful⟩,
      .bind (hup.record e .ignored) fun _ => .bind (hup.line _ _) fun _ => .pure none⟩
    rw [hmode] at hlatch
    rw [hpanic, hmode, hnewest, fatalSinceReset, ← hlatch, Bool.or_true]
  | false =>
    rw [hmode] at hlatch
    cases hfatal : e.isFatal with
    | true =>
      -- the latch is set at once, and everything else comes after that
      set m₂ := s.latched m₁ with hm₂
      have hmoments : j.moments.get m₂ = j.moments.get m₁ := j.moments_table _ m₁
      refine ⟨m₂, _, runOn_receive_of_fatal hmode hfatal, ⟨?_, ?_⟩,
        .bind (hup.announceLatch e _) fun _ => .pure _⟩
      · have hlatched : (s.table.get m₂).panicMode = true := by
          rw [hm₂, ErrorSite.latched, Part.get_set]
        rw [hlatched, hmoments, hnewest, fatalSinceReset, hfatal, Bool.true_or]
      · rw [hmoments]
        exact htruthful
    | false =>
      refine ⟨m₁, pure (some (s.sink m)), runOn_receive_of_plain hmode hfatal,
        ⟨?_, htruthful⟩, .pure _⟩
      rw [hpanic, hmode, hnewest, fatalSinceReset, hfatal, ← hlatch, Bool.or_false]

/-- A report keeps the journal consistent, if its handlers and observers do. -/
theorem upholds_report
    (handlers : ∀ n e, Exec.Upholds (Client.errorHandler (σ := σ) n e) j.Consistent j.Consistent)
    (e : SystemError) : Exec.Upholds (do
      j.note (.reported e)
      s.handle e) j.Consistent j.Consistent := by
  intro m hm
  set m₁ := j.moments.set (.reported e :: j.moments.get m) m with hm₁
  have hnote : Exec.runOn (j.note (.reported e)) m = (.ok (), m₁) := Part.runOn_update _ _ m
  have hpending : j.Pending e (j.moments.get m) m₁ := by
    refine ⟨Part.get_set _ _ _, ?_, hm.truthful⟩
    rw [hm₁, j.table_moments _ m]
    exact hm.latch
  obtain ⟨m₂, rest, hreceive, hm₂, hrest⟩ := hpending.receive written
  rw [Exec.runOn_bind_of_ok hnote, ErrorSite.handle, Exec.runOn_bind, hreceive, ← Exec.runOn_bind]
  refine Exec.Upholds.bind hrest (fun received => ?_) m₂ hm₂
  cases received with
  | none => exact .pure _
  | some sink => exact upholds_settle written handlers e sink

end

/-- Programs that report errors, reset panic mode and look at it keep the journal consistent,
however they end. -/
theorem reporting_upholds {x : Exec σ α} (h : Reporting j x) :
    Exec.Upholds x j.Consistent j.Consistent := by
  induction h with
  | other hkeeps => exact Consistent.upholds_keeps hkeeps
  | bind _ _ ihx ihf => exact .bind ihx ihf
  | tryCatch _ _ ihx ihh => exact .tryCatch ihx ihh
  | look =>
    intro m hm
    set m₁ := j.moments.set (.seen (s.table.get m).panicMode :: j.moments.get m) m with hm₁
    have hmoments : j.moments.get m₁ = .seen (s.table.get m).panicMode :: j.moments.get m :=
      Part.get_set _ _ _
    have hpanic : (s.table.get m₁).panicMode = (s.table.get m).panicMode := by
      rw [hm₁, j.table_moments _ m]
    show j.Consistent m₁
    refine ⟨?_, ?_⟩
    · rw [hpanic, hmoments]
      exact hm.latch
    · rw [hmoments]
      exact ⟨hm.latch, hm.truthful⟩
  | reset =>
    intro m hm
    set m₁ := j.moments.set (.reset :: j.moments.get m) m
    set m₂ := s.table.set { s.table.get m₁ with panicMode := false } m₁ with hm₂
    have hmoments : j.moments.get m₂ = .reset :: j.moments.get m :=
      (j.moments_table _ m₁).trans (Part.get_set _ _ _)
    show j.Consistent m₂
    refine ⟨?_, ?_⟩
    · rw [hmoments, hm₂, Part.get_set]
      rfl
    · rw [hmoments]
      exact hm.truthful
  | report client _ _ e written handlers => exact @upholds_report σ s j client written handlers e

end Journal

end ErrorSite

end Supervisor
