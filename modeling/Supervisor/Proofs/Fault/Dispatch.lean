/-
Errors are offered to those who want them.

A reported error goes to the registered handlers that want it, in order, until one claims it.  Its
outcome is the best of their answers, and a fatal error that nobody helps with does not return.

* `ErrorEntry.Answers` — what one call of a handler comes to;
* `outcomeOf` — the best of some answers, in whatever order they come;
* `offer_of_walk` — to offer an error does what the calls of its walk do;
* `Closed.returns_iff` — when there is a way on;
* `handle_offers_to_takers` — the whole of it, after any history of the table.

Design notes: handlers reach the lock of a site through its operations only, each of which gives the
lock back.  To return therefore means for a handler that it leaves the lock as it finds it.
-/
import Supervisor.Proofs.Fault.Reception
import Supervisor.Proofs.Walk

namespace Supervisor

variable {σ : Type}

/-! ### The best of some answers -/

/-- The best of some answers: to claim an error counts more than to help, and to help more than to
ignore it. -/
def outcomeOf (answers : List ErrorOutcome) : ErrorOutcome :=
  if .handled ∈ answers then .handled
  else if .partially ∈ answers then .partially
  else if .ignored ∈ answers then .ignored
  else .unhandled

theorem outcomeOf_unhandled (answers : List ErrorOutcome) :
    outcomeOf (.unhandled :: answers) = outcomeOf answers := by
  simp [outcomeOf]

theorem outcomeOf_of_mem_handled {answers : List ErrorOutcome} (h : .handled ∈ answers) :
    outcomeOf answers = .handled := if_pos h

/-- To combine the outcome so far with an answer keeps the best of the two. -/
theorem outcomeOf_combine {before next : ErrorOutcome} (hb : before ≠ .handled)
    (hn : next ≠ .handled) (answers : List ErrorOutcome) :
    outcomeOf (before.combine next :: answers) = outcomeOf (before :: next :: answers) := by
  cases before with
  | handled => exact absurd rfl hb
  | _ =>
    cases next with
    | handled => exact absurd rfl hn
    | _ => simp [outcomeOf, ErrorOutcome.combine]

variable [client : Client σ]

/-! ### Calls -/

/-- Called on machine `m`, the handler of an entry ends with outcome `o` and leaves `m'`, where the
lock of the site is as it was. -/
def ErrorEntry.Answers (s : ErrorSite σ) (e : SystemError) (x : ErrorEntry) (m : Machine σ)
    (o : ErrorOutcome) (m' : Machine σ) : Prop :=
  Exec.runOn (x.handler.run e) m = (.ok o, m') ∧ s.isTaken m' = s.isTaken m

/-- Whether an outcome claims the error. -/
def ErrorOutcome.Claims (o : ErrorOutcome) : Prop := o = .handled

/-- The handler of an entry returns and leaves the lock of the site as it was. -/
def ErrorEntry.ReturnsIn (s : ErrorSite σ) (e : SystemError) (x : ErrorEntry) (m : Machine σ) :
    Prop :=
  ∃ o m', x.Answers s e m o m'

namespace ErrorSite

/-- To offer an error ends with the best of the answers of its walk. -/
theorem offer_of_walk {s : ErrorSite σ} {e : SystemError} {entries : List ErrorEntry}
    {calls : List (Call ErrorEntry ErrorOutcome (Machine σ))} {m m' : Machine σ}
    (hlinked : Linked (ErrorEntry.Answers s e) m calls m')
    (hupTo : UpTo ErrorOutcome.Claims entries calls) {before : ErrorOutcome}
    (hbefore : before ≠ .handled) :
    Exec.runOn (offer e entries before) m =
      (.ok (outcomeOf (before :: calls.map Call.answer)), m') := by
  revert before
  refine walk_induction (motive := fun entries m calls m' => ∀ {before : ErrorOutcome},
    before ≠ .handled → Exec.runOn (offer e entries before) m =
      (.ok (outcomeOf (before :: calls.map Call.answer)), m')) ?_ ?_ ?_ hlinked hupTo
  · intro m before hbefore
    have houtcome : outcomeOf [before] = before := by
      cases before with
      | handled => exact absurd rfl hbefore
      | _ => rfl
    show _ = (Except.ok (outcomeOf [before]), m)
    rw [houtcome]
    rfl
  · intro x entries m o m' hcall hclaim before hbefore
    -- the error is claimed, and that is the best answer there is
    obtain rfl : o = .handled := hclaim
    rw [offer, Exec.runOn_bind_of_ok hcall.1, outcomeOf_of_mem_handled (by simp)]
    rfl
  · intro x entries m o m₁ calls m' hcall hclaim ih before hbefore
    -- so far nobody has claimed the error, and `o` does not either
    have hnext : before.combine o ≠ .handled := by
      cases before with
      | handled => exact absurd rfl hbefore
      | _ =>
        cases o with
        | handled => exact absurd rfl hclaim
        | _ => exact fun h => nomatch h
    rw [List.map_cons, ← outcomeOf_combine hbefore hclaim, ← ih hnext, offer,
      Exec.runOn_bind_of_ok hcall.1]
    cases o with
    | handled => exact absurd rfl hclaim
    | _ => rfl

/-! ### The table is read -/

/-- Whoever finds the lock free gets the entries that match at that moment, and has given the lock
back before any of them is called. -/
theorem runOn_takers_of_free (s : ErrorSite σ) (e : SystemError) (sink : Sink) {m : Machine σ}
    (h : s.isTaken m = false) :
    Exec.runOn (s.takers e sink) m =
      (.ok ((s.table.get m).matching e), s.lock.set ⟨false, noOwner⟩ (s.asked m)) := by
  rw [takers, s.runOn_locked_of_free _ _ h, Exec.runOn_bind_of_ok (Part.runOn_read s.table _),
    table_lock_set, table_asked]
  show (Except.ok _, s.lock.set _ (s.lock.set _ _)) = _
  rw [Part.set_set]
  rfl

/-- Once a report is closed, it comes back with its outcome exactly if the error is not fatal or
somebody helped. -/
theorem Closed.returns_iff {s : ErrorSite σ} {e : SystemError} {sink : Sink} {o r : ErrorOutcome}
    {m m₁ m' : Machine σ} (h : s.Closed e sink o m m₁)
    (hrecord : Exec.runOn (s.record e o) m = (.ok (), s.recorded e o m)) :
    Exec.runOn (s.conclude e sink o) m = (.ok r, m') ↔
      r = o ∧ m' = m₁ ∧ (e.isFatal = false ∨ o = .handled ∨ o = .partially) := by
  have hhelped : o.helped = true ↔ o = .handled ∨ o = .partially := by
    cases o <;> simp [ErrorOutcome.helped]
  rw [h.runOn_conclude hrecord client rfl, ← hhelped]
  -- the guard of the code is the negation of what the statement asks for
  by_cases hhalt : (e.isFatal && !o.helped) = true
  · rw [if_pos hhalt]
    obtain ⟨hfatal, hno⟩ := Bool.and_eq_true_iff.1 hhalt
    refine iff_of_false (Exec.Stops.of_first (s.halt_stops e) _ m₁ r m') ?_
    rintro ⟨-, -, hfatal' | hhelps⟩
    · rw [hfatal] at hfatal'
      cases hfatal'
    · rw [hhelps] at hno
      cases hno
  · rw [if_neg hhalt]
    have hway : e.isFatal = false ∨ o.helped = true := by
      cases hfatal : e.isFatal with
      | false => exact .inl rfl
      | true =>
        rw [hfatal] at hhalt
        simpa using hhalt
    constructor
    · intro hrun
      have hr : o = r := Except.ok.inj (congrArg Prod.fst hrun)
      have hm : m₁ = m' := congrArg Prod.snd hrun
      exact ⟨hr.symm, hm.symm, hway⟩
    · rintro ⟨rfl, rfl, -⟩
      rfl

/-- **An error is offered to those who want it.**  Let an error be reported while panic mode is
clear.

It is noted first, and if it is fatal, panic mode is latched and announced.  That runs no handler,
so it would go the same way with other handlers, and leaves the lock as it is; it leaves the
handlers alone unless it is those who observe the console that change them.

Let `m₂` be the machine at the moment when the lock is obtained to read the table: that is `m₁` if
the lock is free, or a later one if another hart holds it.  Requests that were granted meanwhile add
to the history that the handlers stand after.  The error is offered to the entries of that ledger
that want it, in ascending priority and, among equals, in the order of their registration.  The lock
is free again before the first call, and but for that `m₃` differs from `m₂` only by the number of
the hart.  As long as each handler returns when its turn comes, the calls are those entries in
order, each once, up to and including the first that claims the error.  The outcome is the best of
their answers in whatever order they came.  It goes into the log and a line tells of it, no other
handler is run, and the report returns, and returns this outcome, exactly if the error is not fatal
or somebody helped.

The handlers may register, remove and report themselves; their own reports are offered by the same
theorem, since `m` is any machine. -/
theorem handle_offers_to_takers (s : ErrorSite σ) (console : ConsoleReturns σ)
    (quiet : ∀ text, Exec.Keeps (client.written text) s.isTaken) {e : SystemError}
    {m : Machine σ} (calm : (s.table.get m).panicMode = false) :
    let sink := s.sink m
    ∃ m₁,
      s.Received e m m₁ ∧
      (∀ other : Client σ, other.written = client.written →
        Exec.runOn (@receive σ other s e) m = (.ok (some sink), m₁)) ∧
      Exec.runOn (s.handle e) m = Exec.runOn (s.settle e sink) m₁ ∧
      s.isTaken m₁ = s.isTaken m ∧
      ((∀ text, Exec.Keeps (client.written text) fun m => (s.table.get m).slots) →
        s.Tended m [] m₁) ∧
      (∀ past changes m₂, s.StandsAfter m past → s.Tended m changes m₂ →
        s.StandsAfter m₂ (past ++ changes)) ∧
      ∀ m₂, s.isTaken m₂ = false → ∀ history, s.StandsAfter m₂ history →
        let entries := ErrorTable.wanting e (ErrorTable.ledger history)
        let m₃ := s.lock.set ⟨false, noOwner⟩ (s.asked m₂)
        Exec.runOn (s.takers e sink) m₂ = (.ok entries, m₃) ∧
        s.isTaken m₃ = false ∧ s.StandsAfter m₃ history ∧
        (Throughout (ErrorEntry.Answers s e) ErrorOutcome.Claims (ErrorEntry.ReturnsIn s e)
            entries m₃ →
          ∃ calls last m₄,
            Linked (ErrorEntry.Answers s e) m₃ calls last ∧
            UpTo ErrorOutcome.Claims entries calls ∧
            let outcome := outcomeOf (calls.map Call.answer)
            let ended := Exec.runOn (s.settle e sink) m₂
            s.Closed e sink outcome last m₄ ∧
            (∀ other : Client σ, other.written = client.written →
              Exec.runOn (@conclude σ other s e sink outcome) last = ended) ∧
            ∀ r m', ended = (.ok r, m') ↔
              r = outcome ∧ m' = m₄ ∧
                (e.isFatal = false ∨ outcome = .handled ∨ outcome = .partially)) := by
  intro sink
  obtain ⟨m₁, hreceived⟩ := exists_received console s e m
  have hreceive := hreceived.runOn_receive calm
  have htaken : s.isTaken m₁ = s.isTaken m :=
    hreceived.keeps (fun p m => congrArg Spinlock.flag (s.lock_apart_platform p m))
      (fun t m => congrArg (·.lock.flag) (s.table_trace t m))
      (fun m => congrArg (·.lock.flag) (s.table.get_set _ m)) quiet
  refine ⟨m₁, hreceived, hreceive, ?_, htaken, fun hslots => ?_,
    fun past changes m₂ hstands htended => hstands.tended htended, ?_⟩
  · rw [handle, Exec.runOn_bind_of_ok (hreceive client rfl)]
  · let view (m : Machine σ) := (s.table.get m).slots
    have hsame : view m₁ = view m :=
      hreceived.keeps (fun p m => congrArg (·.slots) (s.table_platform p m))
        (fun t m => congrArg (·.slots) (s.table_trace t m))
        (fun m => congrArg (·.slots) (s.table.get_set _ m)) hslots
    exact .aside .nothing hsame
  · intro m₂ free₂ history hstands entries m₃
    have htakers : Exec.runOn (s.takers e sink) m₂ = (.ok entries, m₃) := by
      rw [s.runOn_takers_of_free e sink free₂, ErrorTable.matching_run hstands e]
    have hfree₃ : s.isTaken m₃ = false := congrArg (·.lock.flag) (s.table_lock_set _ _)
    have hstands₃ : s.StandsAfter m₃ history := by
      rw [StandsAfter, table_lock_set, table_asked]
      exact hstands
    refine ⟨htakers, hfree₃, hstands₃, fun hreturn => ?_⟩
    obtain ⟨calls, last, hlinked, hupTo⟩ := exists_walk hreturn
    have hoffer : Exec.runOn (offer e entries .unhandled) m₃ =
        (.ok (outcomeOf (calls.map Call.answer)), last) := by
      rw [offer_of_walk hlinked hupTo (by decide), outcomeOf_unhandled]
    have hsettle : Exec.runOn (s.settle e sink) m₂ =
        Exec.runOn (s.conclude e sink (outcomeOf (calls.map Call.answer))) last := by
      rw [settle, Exec.runOn_bind_of_ok htakers, Exec.runOn_bind_of_ok hoffer]
    -- each call leaves the lock as it finds it, so the log can be written in the end
    have hlast : s.isTaken last = false :=
      hlinked.preserves (fun hcall hfree => hcall.2.trans hfree) hfree₃
    obtain ⟨m₄, hclosed⟩ := exists_printed console sink
      ["[ERROR] ", e.line, " -> ", (outcomeOf (calls.map Call.answer)).name, "\n"]
      (s.recorded e (outcomeOf (calls.map Call.answer)) last)
    refine ⟨calls, last, m₄, hlinked, hupTo, hclosed, fun other same => ?_, fun r m' => ?_⟩
    · rw [conclude_congr same, hsettle]
    · rw [hsettle]
      exact Closed.returns_iff hclosed (s.runOn_record_of_free e _ hlast)

end ErrorSite

/-- A client whose first error handler removes all handlers and helps with the error.  Its others
ignore it. -/
inductive Quitter where
  | here

instance : Client Quitter where
  trapHandler _ := return .pass
  errorHandler n _ := do
    if n = 0 then
      Machine.theErrors.update fun t => { t with slots := SlotTable.empty }
      return .partially
    else return .ignored
  command _ _ _ := return 0
  written _ := return

/-- Two handlers that want every error, and one for errors of the network. -/
def Quitter.history : List ErrorTable.Change :=
  [.register ⟨some (.client 1), some [1], 10, none, none⟩,
    .register ⟨some (.client 2), some [2], 0, some ⟨5⟩, none⟩,
    .register ⟨some (.client 0), some [3], 5, none, none⟩]

/-- A machine with these handlers. -/
def Quitter.machine : Machine Quitter where
  system.errors := ErrorTable.run {} history
  clients := .here

/-- A fatal error of the memory. -/
def Quitter.error : SystemError where
  code := .make .memory .fatal 2

/-- A fatal error that is helped with and then ignored was helped with, although the one who helped
removed all handlers. -/
theorem handle_offers_to_removed :
    (Exec.runOn (ErrorSite.system.handle Quitter.error) Quitter.machine).1 = .ok .partially ∧
    ∃ (m : Machine Quitter) (calls : List (Call ErrorEntry ErrorOutcome (Machine Quitter)))
        (last : Machine Quitter),
      Linked (ErrorEntry.Answers ErrorSite.system Quitter.error) m calls last ∧
      UpTo ErrorOutcome.Claims
        [⟨.client 0, [3], 5, none, none⟩, ⟨.client 1, [1], 10, none, none⟩] calls := by
  refine ⟨by rfl, ?_⟩
  obtain ⟨m₁, -, -, -, htaken, htended, hadds, hsettle⟩ :=
    ErrorSite.system.handle_offers_to_takers (fun _ m => ⟨(), m, rfl⟩) (fun _ _ => rfl)
      (e := Quitter.error) (m := Quitter.machine) (by rfl)
  have hstands := hadds Quitter.history [] m₁ (by rfl) (htended fun _ _ => rfl)
  rw [List.append_nil] at hstands
  obtain ⟨-, -, -, hwalk⟩ := hsettle m₁ (by rw [htaken]; rfl) Quitter.history hstands
  have hentries : ErrorTable.wanting Quitter.error (ErrorTable.ledger Quitter.history) =
      [⟨.client 0, [3], 5, none, none⟩, ⟨.client 1, [1], 10, none, none⟩] := by
    rw [← ErrorTable.matching_run (t := ErrorTable.run {} Quitter.history) rfl]
    decide
  rw [hentries] at hwalk
  obtain ⟨calls, last, _, hlinked, hupTo, -⟩ := hwalk <| by
    intro calls m x rest _ _ heq
    have hx : x ∈ ([⟨.client 0, [3], 5, none, none⟩, ⟨.client 1, [1], 10, none, none⟩] :
        List ErrorEntry) := by
      rw [heq]
      exact List.mem_append_right _ List.mem_cons_self
    rcases List.mem_cons.1 hx with rfl | hx
    · exact ⟨.partially, _, rfl, rfl⟩
    · rw [List.mem_singleton.1 hx]
      exact ⟨.ignored, m, rfl, rfl⟩
  exact ⟨_, calls, last, hlinked, hupTo⟩

end Supervisor
