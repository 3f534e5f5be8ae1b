/-
The newest items of a ring.

The trace and the log of errors keep the newest of what comes to them.  Each has a bookkeeping of
its own: the trace finds every slot from one running count, and the log turns a mark over its slots
and counts besides.  What they hold comes to the same.

* `Ring.get?_foldl_push`, `ErrorLog.get?_foldl_push` — the end of the list of what was put in;
* `LogCall`, `TraceCall` — what a log and a trace are asked for;
* `LogCall.enter`, `TraceAccount` — what was accepted since the last emptying, in order;
* `runOn_listing` — a listing that nobody disturbs writes the lines of what it finds;
* `rings_keep_the_newest` — what both hold, and what they print.

Design notes: the times of events are part of what a trace is asked for, since the clock may run on
between two events.
-/
import Mathlib.Data.List.Induction
import Supervisor.Proofs.Notice

namespace Supervisor

variable {σ : Type}

/-! ### What a ring holds -/

namespace Ring

variable {α : Type} {n : Nat}

@[simp] theorem written_foldl_push (r : Ring α n) (as : List α) :
    (as.foldl push r).written = r.written + as.length := by
  induction as generalizing r with
  | nil => rfl
  | cons a as ih =>
    rw [List.foldl_cons, ih, written_push, List.length_cons]
    omega

/-- The slot of each of the newest `n` items holds it. -/
theorem slots_foldl_push (as : List α) {k : Nat} (hk : k < as.length) (hn : as.length ≤ k + n) :
    (as.foldl push ({} : Ring α n)).slots[k % n]? = some as[k]? := by
  have hpos : 0 < n := by omega
  induction as using List.reverseRecOn generalizing k with
  | nil => cases hk
  | append_singleton as a ih =>
    rw [List.length_append, List.length_singleton] at hk hn
    have hmod : as.length % n < n := Nat.mod_lt _ hpos
    rw [List.foldl_append, List.foldl_cons, List.foldl_nil, push, written_foldl_push]
    show (Vector.setIfInBounds _ ((0 + as.length) % n) (some a))[k % n]? = _
    rw [Nat.zero_add, Vector.getElem?_setIfInBounds]
    by_cases hlast : k = as.length
    · rw [hlast, if_pos rfl, if_pos hmod]
      simp
    · -- the items of different slots are less than a whole round apart
      have hne : as.length % n ≠ k % n := by
        intro heq
        have hzero := Nat.sub_mod_eq_zero_of_mod_eq heq
        rw [Nat.mod_eq_of_lt (by omega)] at hzero
        omega
      rw [if_neg hne, ih (by omega) (by omega), List.getElem?_append_left (by omega)]

/-- Where the items are looked for, whether or not the ring has gone round. -/
theorem place_eq (written i : Nat) :
    ((if n < written then written % n else 0) + i) % n = (written - n + i) % n := by
  split
  · have hround : written + i = written - n + i + n := by omega
    rw [Nat.mod_add_mod, hround, Nat.add_mod_right]
  · have hfirst : written - n = 0 := by omega
    rw [hfirst]

/-- After a list of items a ring holds the end of the list, in order. -/
theorem get?_foldl_push (as : List α) (i : Nat) :
    (as.foldl push ({} : Ring α n)).get? i = (as.drop (as.length - n))[i]? := by
  set r := as.foldl push ({} : Ring α n) with hr
  have hwritten : r.written = as.length := by
    rw [hr, written_foldl_push]
    exact Nat.zero_add _
  rw [get?, size, oldest, hwritten, List.getElem?_drop]
  by_cases hi : i < min as.length n
  · rw [if_pos hi, place_eq, hr, slots_foldl_push as (by omega) (by omega)]
    rfl
  · rw [if_neg hi, List.getElem?_eq_none (by omega)]

end Ring

namespace ErrorLog

/-- The mark goes round with the count, and so the records stand where a ring puts them. -/
theorem foldl_push_eq (rs : List LogRecord) :
    rs.foldl push {} =
      ⟨(rs.foldl Ring.push ({} : Ring LogRecord logCapacity)).slots, rs.length % logCapacity,
        rs.length⟩ := by
  induction rs using List.reverseRecOn with
  | nil => rfl
  | append_singleton rs r ih =>
    rw [List.foldl_append, List.foldl_cons, List.foldl_nil, ih, List.foldl_append, List.foldl_cons,
      List.foldl_nil, push, Ring.push, Ring.written_foldl_push, List.length_append,
      List.length_singleton]
    simp only [Nat.mod_add_mod, Nat.zero_add]

@[simp] theorem written_foldl_push (rs : List LogRecord) :
    (rs.foldl push {}).written = rs.length := by rw [foldl_push_eq]

theorem size_eq_min (l : ErrorLog) : l.size = min l.written logCapacity := by
  rw [size]
  split <;> omega

/-- The mark stands on the oldest record once the log is full, which is where a ring looks. -/
theorem oldest_eq {l : ErrorLog} (h : l.next = l.written % logCapacity) :
    l.oldest = if logCapacity < l.written then l.written % logCapacity else 0 := by
  rw [oldest, size_eq_min, h]
  by_cases hfull : logCapacity < l.written
  · rw [if_pos hfull, if_neg (by omega)]
  · rw [if_neg hfull]
    split
    · rfl
    · have hwhole : l.written = logCapacity := by omega
      rw [hwhole, Nat.mod_self]

/-- After a list of records a log holds the end of the list, in order. -/
theorem get?_foldl_push (rs : List LogRecord) (i : Nat) :
    (rs.foldl push {}).get? i = (rs.drop (rs.length - logCapacity))[i]? := by
  have hring := Ring.get?_foldl_push (n := logCapacity) rs i
  have hcount : (rs.foldl Ring.push ({} : Ring LogRecord logCapacity)).written = rs.length := by
    rw [Ring.written_foldl_push]
    exact Nat.zero_add _
  rw [Ring.get?, Ring.size, Ring.oldest, hcount] at hring
  rw [foldl_push_eq, get?, size_eq_min, oldest_eq rfl]
  exact hring

end ErrorLog

/-! ### What a log and a trace are asked for -/

/-- What a log of errors is asked for. -/
inductive LogCall where
  | log (record : LogRecord)
  | clear
deriving Repr, DecidableEq

/-- The log after a call. -/
def ErrorLog.after (l : ErrorLog) : LogCall → ErrorLog
  | .log r => l.push r
  | .clear => {}

/-- The records since the log was last emptied, oldest first, after a call. -/
def LogCall.enter (records : List LogRecord) : LogCall → List LogRecord
  | log r => records ++ [r]
  | clear => []

/-- What a trace is asked for. -/
inductive TraceCall where
  | record (now : UInt64) (kind : EventKind) (name : Text) (value : UInt64)
  | setEnabled (on : Bool)
  | clear
  | start (clocked : Bool)
deriving Repr, DecidableEq

/-- The trace after a call. -/
def Trace.after (t : Trace) : TraceCall → Trace
  | .record now kind name value => t.record now kind name value
  | .setEnabled on => { t with enabled := on }
  | .clear => t.clear
  | .start clocked => t.start clocked

/-- What is known of a trace from the calls alone. -/
structure TraceAccount where
  enabled : Bool
  clocked : Bool
  /-- The events that were accepted since the trace was last emptied, oldest first. -/
  events : List TraceEvent := []

namespace TraceAccount

/-- What is known after a call. -/
def after (a : TraceAccount) : TraceCall → TraceAccount
  | .record now kind name value =>
    if a.enabled then
      { a with events := a.events ++ [⟨if a.clocked then now else 0, kind, name, value⟩] }
    else a
  | .setEnabled on => { a with enabled := on }
  | .clear => { a with events := [] }
  | .start clocked => { a with clocked, events := [] }

/-- The trace that an account tells of. -/
def trace (a : TraceAccount) : Trace where
  enabled := a.enabled
  clocked := a.clocked
  events := a.events.foldl Ring.push {}

theorem trace_after (a : TraceAccount) (c : TraceCall) : (a.after c).trace = a.trace.after c := by
  cases c with
  | record now kind name value =>
    cases henabled : a.enabled with
    | true =>
      simp only [after, henabled, if_true, trace, Trace.after, Trace.record, List.foldl_append,
        List.foldl_cons, List.foldl_nil]
    | false =>
      simp only [after, henabled, Bool.false_eq_true, if_false, trace, Trace.after, Trace.record]
  | setEnabled on => rfl
  | clear => rfl
  | start clocked => rfl

/-- The calls lead the trace to what its account tells. -/
theorem trace_foldl_after (a : TraceAccount) (calls : List TraceCall) :
    (calls.foldl after a).trace = calls.foldl Trace.after a.trace := by
  induction calls generalizing a with
  | nil => rfl
  | cons c calls ih => rw [List.foldl_cons, ih, trace_after, List.foldl_cons]

end TraceAccount

/-- The calls lead the log to the records that were entered since it was last emptied. -/
theorem ErrorLog.foldl_after (records : List LogRecord) (calls : List LogCall) :
    calls.foldl after (records.foldl push {}) =
      (calls.foldl LogCall.enter records).foldl push {} := by
  induction calls generalizing records with
  | nil => rfl
  | cons c calls ih =>
    have hstep : (records.foldl push {}).after c = (c.enter records).foldl push {} := by
      cases c with
      | log r => rw [LogCall.enter, List.foldl_append]; rfl
      | clear => rfl
    rw [List.foldl_cons, List.foldl_cons, hstep, ih]

/-- To take an event is a call at the time that the clock shows, if there is one. -/
theorem Machine.noted_eq_after {trace : Part (Machine σ) Trace}
    (apart : trace.Apart thePlatform) (kind : EventKind) (name : Text) (value : UInt64)
    (m : Machine σ) :
    ∃ p, m.noted trace kind name value =
      trace.set ((trace.get m).after (.record m.platform.time.1 kind name value))
        (thePlatform.set p m) := by
  rw [noted, timed, Trace.after]
  by_cases henabled : (trace.get m).enabled = true
  · rw [if_pos henabled]
    by_cases hclocked : (trace.get m).clocked = true
    · rw [if_pos hclocked]
      exact ⟨m.platform.time.2, by rw [apart]⟩
    · -- without a clock the time does not matter
      have htime : (trace.get m).record 0 kind name value =
          (trace.get m).record m.platform.time.1 kind name value := by
        rw [Trace.record, Trace.record, if_neg hclocked, if_neg hclocked]
      rw [if_neg hclocked, htime]
      exact ⟨m.platform, rfl⟩
  · have hoff : (trace.get m).enabled = false := Bool.not_eq_true _ ▸ henabled
    refine ⟨m.platform, ?_⟩
    rw [if_neg henabled, Trace.record_of_disabled hoff]
    exact (trace.set_get m).symm

/-! ### What is printed -/

/-- The lines about some items, of which the first has the number `i`. -/
def linesFrom {A : Type} (line : Nat → A → Text) (items : List A) (i : Nat) : List Text :=
  (items.zipIdx i).map fun (a, k) => line k a

/-- What is written about the newest `count` of some records, if a log has kept what it can. -/
def ErrorLog.listing (records : List LogRecord) (count : Nat) : List Text :=
  let size := min records.length logCapacity
  let shown := min count size
  if shown = 0 then ["No error records\n"]
  else
    (List.flatten ["=== Recent errors (", Numeral.decimal shown, " of ",
      Numeral.decimal records.length, ") ===\n"]).take 255 ::
      linesFrom (fun i r => (ErrorLog.recordLine i r).flatten.take 255)
        (records.drop (records.length - shown)) (size - shown)

/-- What is written about some events, if a trace has kept what it can. -/
def Trace.listing (events : List TraceEvent) : List Text :=
  if events = [] then ["Trace buffer empty\n"]
  else
    ("\n--- Trap Trace ---\n" : Text) ::
      linesFrom Trace.eventLine (events.drop (events.length - traceCapacity)) 0 ++
        [("--- End Trace ---\n" : Text)]

variable [Client σ]

section

variable {S A : Type} {part : Part (Machine σ) S} (apart : part.Apart Machine.thePlatform)
  (quiet : ∀ text, Exec.Keeps (Client.written (σ := σ) text) part.get)

include apart quiet

theorem puts_keeps_part (sink : Sink) (t : Text) : Exec.Keeps (puts (σ := σ) sink t) part.get := by
  cases sink with
  | nowhere => exact .pure ()
  | console => exact .bind (.update apart _) fun _ => quiet _

/-- A listing that looks up its items one after the other writes the lines of those that are there,
as long as nobody changes them meanwhile. -/
theorem runOn_listing (look : S → Nat → Option A) {line : Nat → A → Text} {sink : Sink}
    {list : (count i : Nat) → Exec σ Unit} (done : ∀ i, list 0 i = pure ())
    (next : ∀ count i m a, look (part.get m) i = some a →
      Exec.runOn (list (count + 1) i) m = Exec.runOn (do
        puts sink (line i a)
        list count (i + 1)) m)
    (items : List A) {i : Nat} {m : Machine σ} (held : ∀ k < items.length,
      look (part.get m) (i + k) = items[k]?) :
    Exec.runOn (list items.length i) m =
      Exec.runOn ((linesFrom line items i).forM (puts sink)) m := by
  induction items generalizing i m with
  | nil => rw [List.length_nil, done]; rfl
  | cons a items ih =>
    have hfirst : look (part.get m) i = some a := held 0 (Nat.zero_lt_succ _)
    have hlines : (linesFrom line (a :: items) i).forM (puts sink) = (do
        puts (σ := σ) sink (line i a)
        (linesFrom line items (i + 1)).forM (puts sink)) := rfl
    rw [List.length_cons, next _ _ _ _ hfirst, hlines]
    refine Exec.runOn_bind_congr fun _ m' hput => ih fun k hk => ?_
    -- whoever saw the first line has left the items as they were
    have hsame : part.get m' = part.get m := (puts_keeps_part apart quiet sink _).of_runOn hput
    rw [hsame, Nat.add_assoc, Nat.add_comm 1 k]
    exact held (k + 1) (Nat.succ_lt_succ hk)

end

theorem runOn_forM_nowhere (lines : List Text) (m : Machine σ) :
    Exec.runOn (lines.forM (puts .nowhere)) m = (.ok (), m) := by
  induction lines with
  | nil => rfl
  | cons line lines ih => exact ih

theorem ErrorLog.runOn_print {part : Part (Machine σ) ErrorLog}
    (apart : part.Apart Machine.thePlatform)
    (quiet : ∀ text, Exec.Keeps (Client.written (σ := σ) text) part.get)
    {records : List LogRecord} {m : Machine σ} (hlog : part.get m = records.foldl push {})
    (count : Nat) (sink : Sink) :
    Exec.runOn (print part count sink) m =
      Exec.runOn ((listing records count).forM (puts sink)) m := by
  cases sink with
  | nowhere => exact (runOn_forM_nowhere _ m).symm
  | console =>
    rw [print, Exec.runOn_bind_of_ok (Part.runOn_read part m), hlog, size_eq_min,
      written_foldl_push, listing]
    by_cases hnone : min count (min records.length logCapacity) = 0
    · rw [if_pos hnone, if_pos hnone, List.forM_eq_forM, List.forM_cons, List.forM_nil,
        bind_pure_unit, putsUnguarded_console]
    · rw [if_neg hnone, if_neg hnone, List.forM_eq_forM, List.forM_cons]
      refine Exec.runOn_bind_congr fun _ m' hheader => ?_
      have hsame : part.get m' = part.get m := (puts_keeps_part apart quiet _ _).of_runOn hheader
      have hlength : (records.drop
          (records.length - min count (min records.length logCapacity))).length =
            min count (min records.length logCapacity) := by
        rw [List.length_drop]
        omega
      have hnext (count i : Nat) (m : Machine σ) (r : LogRecord)
          (h : (part.get m).get? i = some r) :
          Exec.runOn (printFrom part .console (count + 1) i) m = Exec.runOn (do
            puts .console ((recordLine i r).flatten.take 255)
            printFrom part .console count (i + 1)) m := by
        rw [printFrom, Exec.runOn_bind_of_ok (Part.runOn_read part m), h]
        rfl
      have hlisting := runOn_listing apart quiet get? (fun _ => rfl) hnext
        (records.drop (records.length - min count (min records.length logCapacity)))
        (i := min records.length logCapacity - min count (min records.length logCapacity)) (m := m')
      rw [hlength] at hlisting
      refine hlisting fun k hk => ?_
      rw [hsame, hlog, get?_foldl_push, List.getElem?_drop, List.getElem?_drop]
      congr 1
      omega

theorem Trace.runOn_print {part : Part (Machine σ) Trace} (apart : part.Apart Machine.thePlatform)
    (quiet : ∀ text, Exec.Keeps (Client.written (σ := σ) text) part.get)
    {events : List TraceEvent} {m : Machine σ}
    (htrace : (part.get m).events = events.foldl Ring.push {}) (sink : Sink) :
    Exec.runOn (print part sink) m = Exec.runOn ((listing events).forM (puts sink)) m := by
  have hsize : (part.get m).events.size = min events.length traceCapacity := by
    rw [htrace, Ring.size, Ring.written_foldl_push]
    exact congrArg (min · traceCapacity) (Nat.zero_add _)
  cases sink with
  | nowhere => exact (runOn_forM_nowhere _ m).symm
  | console =>
    rw [print, Exec.runOn_bind_of_ok (Part.runOn_read part m), hsize, listing]
    by_cases hnone : events = []
    · rw [if_pos hnone, hnone, List.forM_eq_forM, List.forM_cons, List.forM_nil, bind_pure_unit,
        putsUnguarded_console]
      rfl
    · have hsome : min events.length traceCapacity ≠ 0 := by
        have hpos := List.length_pos_iff.2 hnone
        rw [traceCapacity]
        omega
      rw [if_neg hnone, if_neg hsome, putsUnguarded_console, putsUnguarded_console,
        List.cons_append, List.forM_eq_forM, List.forM_cons]
      refine Exec.runOn_bind_congr fun _ m' hheader => ?_
      have hsame : part.get m' = part.get m := (puts_keeps_part apart quiet _ _).of_runOn hheader
      have hlength : (events.drop (events.length - traceCapacity)).length =
          min events.length traceCapacity := by
        rw [List.length_drop]
        omega
      have hnext (count i : Nat) (m : Machine σ) (e : TraceEvent)
          (h : (part.get m).events.get? i = some e) :
          Exec.runOn (printFrom part .console (count + 1) i) m = Exec.runOn (do
            puts .console (eventLine i e)
            printFrom part .console count (i + 1)) m := by
        rw [printFrom, Exec.runOn_bind_of_ok (Part.runOn_read part m), h]
        rfl
      have hlisting := runOn_listing apart quiet (fun t i => t.events.get? i) (fun _ => rfl)
        hnext (events.drop (events.length - traceCapacity)) (i := 0) (m := m')
      rw [hlength] at hlisting
      rw [List.forM_append, List.forM_cons, List.forM_nil, bind_pure_unit, Exec.runOn_bind,
        Exec.runOn_bind,
        hlisting fun k hk => by rw [hsame, htrace, Ring.get?_foldl_push, Nat.zero_add],
        List.forM_eq_forM]

/-- A silent console takes one write for each text. -/
theorem runOn_forM_puts
    (silent : ∀ text (m : Machine σ), Exec.runOn (Client.written text) m = (.ok (), m))
    (lines : List Text) (m : Machine σ) :
    Exec.runOn (lines.forM (puts .console)) m =
      (.ok (), Machine.thePlatform.set
        { m.platform with writes := (lines.map Text.upToNul).reverse ++ m.platform.writes } m) := by
  induction lines generalizing m with
  | nil => rfl
  | cons line lines ih =>
    have hput : Exec.runOn (puts .console line) m =
        (.ok (), Machine.thePlatform.set (m.platform.write (Text.upToNul line)) m) := by
      rw [puts, Exec.runOn_bind_of_ok (Part.runOn_update _ _ _), silent]
      rfl
    have hcons : (line :: lines).forM (puts (σ := σ) .console) = (do
        puts .console line
        lines.forM (puts .console)) := rfl
    rw [hcons, Exec.runOn_bind_of_ok hput, ih, List.map_cons, List.reverse_cons, List.append_assoc]
    rfl

/-- The end of a list, counted from the end of a longer end of it. -/
theorem getElem?_drop_newest {A : Type} (items : List A) (capacity i : Nat) :
    (items.drop (items.length - capacity))[i]? =
      if i < min items.length capacity then
        items[items.length - min items.length capacity + i]?
      else none := by
  rw [List.getElem?_drop]
  have hskipped : items.length - min items.length capacity = items.length - capacity := by omega
  by_cases hi : i < min items.length capacity
  · rw [if_pos hi, hskipped]
  · rw [if_neg hi, List.getElem?_eq_none (by omega)]

/-- **Both rings keep the newest items in order.**  After any calls of a log of errors, let there be
`n` records since it was last emptied.  Then it tells their number, it holds the newest of them as
far as its slots go, and at each place counted from the oldest stands the one that came at that
place.  What it prints is a heading and one line for each of the newest records that are asked for,
oldest first.  The same goes for the events of a trace, which accepts them exactly while it is
enabled.  Nobody who sees the lines may change the ring while it is printed; if they do nothing at
all, each text is one write to the console. -/
theorem rings_keep_the_newest :
    (∀ calls : List LogCall,
      let log := calls.foldl ErrorLog.after {}
      let records := calls.foldl LogCall.enter []
      log.size = min records.length logCapacity ∧ log.written = records.length ∧
      (∀ i, log.get? i =
        if i < log.size then records[records.length - log.size + i]? else none) ∧
      ∀ part : Part (Machine σ) ErrorLog, part.Apart Machine.thePlatform →
        (∀ text, Exec.Keeps (Client.written (σ := σ) text) part.get) →
        ∀ m, part.get m = log → ∀ count sink,
          Exec.runOn (ErrorLog.print part count sink) m =
            Exec.runOn ((ErrorLog.listing records count).forM (puts sink)) m) ∧
    (∀ (enabled clocked : Bool) (calls : List TraceCall),
      let trace := calls.foldl Trace.after { enabled, clocked }
      let account := calls.foldl TraceAccount.after { enabled, clocked }
      let events := account.events
      trace.enabled = account.enabled ∧ trace.events.size = min events.length traceCapacity ∧
      (∀ i, trace.events.get? i =
        if i < trace.events.size then events[events.length - trace.events.size + i]? else none) ∧
      ∀ part : Part (Machine σ) Trace, part.Apart Machine.thePlatform →
        (∀ text, Exec.Keeps (Client.written (σ := σ) text) part.get) →
        ∀ m, part.get m = trace → ∀ sink,
          Exec.runOn (Trace.print part sink) m =
            Exec.runOn ((Trace.listing events).forM (puts sink)) m) ∧
    (∀ part : Part (Machine σ) Trace, part.Apart Machine.thePlatform → ∀ kind name value m,
      ∃ p, Exec.runOn (traceEvent part kind name value) m =
        (.ok (part.get m).enabled,
          part.set ((part.get m).after (.record m.platform.time.1 kind name value))
            (Machine.thePlatform.set p m))) ∧
    ((∀ text (m : Machine σ), Exec.runOn (Client.written text) m = (.ok (), m)) →
      ∀ (lines : List Text) (m : Machine σ), Exec.runOn (lines.forM (puts .console)) m =
        (.ok (), Machine.thePlatform.set
          { m.platform with
            writes := (lines.map Text.upToNul).reverse ++ m.platform.writes } m)) := by
  refine ⟨fun calls => ?_, fun enabled clocked calls => ?_, ?_, runOn_forM_puts⟩
  · intro log records
    have hlog : log = records.foldl ErrorLog.push {} := ErrorLog.foldl_after [] calls
    have hsize : log.size = min records.length logCapacity := by
      rw [ErrorLog.size_eq_min, hlog, ErrorLog.written_foldl_push]
    refine ⟨hsize, by rw [hlog, ErrorLog.written_foldl_push], fun i => ?_, ?_⟩
    · rw [hsize, hlog, ErrorLog.get?_foldl_push, getElem?_drop_newest]
    · intro part apart quiet m hm
      exact ErrorLog.runOn_print apart quiet (hm.trans hlog)
  · intro trace account events
    have htrace : account.trace = trace :=
      TraceAccount.trace_foldl_after { enabled, clocked } calls
    have hevents : trace.events = events.foldl Ring.push {} := by
      rw [← htrace]
      rfl
    have hsize : trace.events.size = min events.length traceCapacity := by
      rw [hevents, Ring.size, Ring.written_foldl_push]
      exact congrArg (min · traceCapacity) (Nat.zero_add _)
    refine ⟨by rw [← htrace]; rfl, hsize, fun i => ?_, ?_⟩
    · rw [hsize, hevents, Ring.get?_foldl_push, getElem?_drop_newest]
    · intro part apart quiet m hm
      exact Trace.runOn_print apart quiet ((congrArg Trace.events hm).trans hevents)
  · intro part apart kind name value m
    obtain ⟨p, hnoted⟩ := Machine.noted_eq_after apart kind name value m
    exact ⟨p, by rw [runOn_traceEvent, hnoted]⟩

/-- A client that only looks at the console. -/
inductive Reader where
  | here

namespace Reader

instance : Client Reader where
  trapHandler _ := return .pass
  errorHandler _ _ := return .unhandled
  command _ _ _ := return 0
  written _ := return

/-- One more record than a log has slots. -/
def reports : List LogCall :=
  (List.range 33).map fun k =>
    .log ⟨{ code := .make .memory .error k.toUInt16 }, false, .unhandled⟩

/-- An event that is accepted, and one that comes while the trace is disabled. -/
def events : List TraceCall :=
  [.record 7 .custom "first" 1, .setEnabled false, .record 8 .custom "second" 2]

def machine : Machine Reader where
  system.errors.log := reports.foldl ErrorLog.after {}
  system.trace := events.foldl Trace.after { enabled := true, clocked := true }
  clients := .here

end Reader

open Reader in
/-- The first of the reports is gone, and the last two are printed.  Of the events the first is
printed. -/
theorem reader_finds_the_newest :
    let log := machine.system.errors.log
    let records := reports.foldl LogCall.enter []
    let writes (x : Exec Reader Unit) := (Exec.runOn x machine).2.platform.writes
    log.written = 33 ∧ log.get? 0 = records[1]? ∧
    writes (ErrorLog.print ErrorSite.system.log 2 .console) =
      ((ErrorLog.listing records 2).map Text.upToNul).reverse ∧
    (ErrorLog.listing records 2).length = 3 ∧
    writes (Trace.print Machine.theTrace .console) =
      [("--- End Trace ---\n" : Text), "[0] 7: CUSTOM  first val=1\n",
        "\n--- Trap Trace ---\n"] := by
  intro log records writes
  obtain ⟨hlog, htrace, -, hputs⟩ := rings_keep_the_newest (σ := Reader)
  obtain ⟨hsize, hwritten, hget, hprint⟩ := hlog reports
  obtain ⟨-, -, -, hdump⟩ := htrace true true events
  have hlines {x : Exec Reader Unit} {lines : List Text}
      (h : Exec.runOn x machine = Exec.runOn (lines.forM (puts .console)) machine) :
      writes x = (lines.map Text.upToNul).reverse := by
    show (Exec.runOn x machine).2.platform.writes = _
    rw [h, hputs fun _ _ => rfl]
    exact List.append_nil _
  have hcount : records.length = 33 := by decide +kernel
  have holdest : log.get? 0 = records[1]? := by
    refine (hget 0).trans ?_
    rw [hsize, hcount]
    exact if_pos (by decide)
  have hprinted := hprint ErrorSite.system.log (fun _ _ => rfl) (fun _ => .pure ()) machine rfl 2
    .console
  have hdumped := hdump Machine.theTrace (fun _ _ => rfl) (fun _ => .pure ()) machine rfl .console
  refine ⟨hwritten.trans hcount, holdest, hlines hprinted, ?_, (hlines hdumped).trans ?_⟩
  · decide +kernel
  · decide +kernel

end Supervisor
