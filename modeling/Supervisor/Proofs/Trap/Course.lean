/-
The course of a run.

While a trap is offered to its handlers, these may take traps of their own, and those who observe
the console may do so, too.  The course of a run that returned tells what went into the trace and
which traps were taken: each with its frame at the start, with the answers of the handlers that were
called for it, and with the traps that were taken within it.

* `Episode` — a trap with all that was taken within it, and `Episode.word`, its beginnings and ends;
* `runOn_takeTrap` — a trap is begun, its entries are looked up, it is offered to them, and it ends;
* `Course` — the course of a run;
* `Course.runs` — a course leads to where the run ends;
* `Course.tells` — what a course records of beginnings and ends is the word of its episodes.

Design notes: the events are part of the course, since the trace keeps the newest ones only.
-/
import Supervisor.Proofs.Rings
import Supervisor.Proofs.Trap.Snapshot
import Supervisor.Proofs.Trap.Work

namespace Supervisor

variable {σ α β : Type}

/-! ### What is recorded -/

/-- A ring that has a slot tells which item it took last. -/
theorem Ring.push_inj {n : Nat} (hn : 0 < n) {r : Ring α n} {a b : α} (h : r.push a = r.push b) :
    a = b := by
  have hslot : r.written % n < n := Nat.mod_lt _ hn
  have hlast (c : α) : (r.push c).slots[r.written % n]? = some (some c) := by
    rw [push, Vector.getElem?_setIfInBounds, if_pos rfl, if_pos hslot]
  have hsame := hlast a
  rw [h, hlast b] at hsame
  exact (Option.some.inj (Option.some.inj hsame)).symm

namespace Trace

/-- The trace after some more events. -/
def extend (t : Trace) (events : List TraceEvent) : Trace :=
  { t with events := events.foldl Ring.push t.events }

@[simp] theorem enabled_extend (t : Trace) (events : List TraceEvent) :
    (t.extend events).enabled = t.enabled := rfl

theorem extend_append (t : Trace) (events events' : List TraceEvent) :
    t.extend (events ++ events') = (t.extend events).extend events' := by
  rw [extend, List.foldl_append]
  rfl

theorem extend_singleton_inj {t : Trace} {e e' : TraceEvent} (h : t.extend [e] = t.extend [e']) :
    e = e' := Ring.push_inj (by decide) (congrArg Trace.events h)

theorem record_of_enabled {t : Trace} (h : t.enabled = true) (now : UInt64) (kind : EventKind)
    (name : Text) (value : UInt64) :
    t.record now kind name value =
      t.extend [⟨if t.clocked then now else 0, kind, name, value⟩] := by
  rw [record, if_pos h]
  rfl

end Trace

/-- Whether events of a kind tell of the beginning or the end of a trap. -/
def EventKind.isMark : EventKind → Bool
  | .trapEnter | .trapExit => true
  | _ => false

/-- An event but for its time. -/
structure Mark where
  kind : EventKind
  name : Text
  value : UInt64
deriving Repr, DecidableEq

/-- The beginning or the end of a trap that an event tells of. -/
def TraceEvent.mark? (e : TraceEvent) : Option Mark :=
  if e.kind.isMark then some ⟨e.kind, e.name, e.value⟩ else none

/-- The beginnings and the ends of traps that some events tell of, in order. -/
def marks (events : List TraceEvent) : List Mark := events.filterMap TraceEvent.mark?

theorem marks_append (events events' : List TraceEvent) :
    marks (events ++ events') = marks events ++ marks events' := List.filterMap_append

theorem marks_of_other {e : TraceEvent} (h : e.kind.isMark = false) : marks [e] = [] := by
  have hnone : e.mark? = none := by rw [TraceEvent.mark?, h, if_neg Bool.false_ne_true]
  exact List.filterMap_cons_none hnone

/-- What some events tell of between the beginning and the end of a trap. -/
theorem marks_trap (time time' : UInt64) (name : Text) (value value' : UInt64)
    (events : List TraceEvent) :
    marks (⟨time, .trapEnter, name, value⟩ :: (events ++ [⟨time', .trapExit, name, value'⟩])) =
      ⟨.trapEnter, name, value⟩ :: (marks events ++ [⟨.trapExit, name, value'⟩]) := by
  have hbegin : TraceEvent.mark? ⟨time, .trapEnter, name, value⟩ =
      some ⟨.trapEnter, name, value⟩ := rfl
  have hend : marks [⟨time', .trapExit, name, value'⟩] = [⟨.trapExit, name, value'⟩] := rfl
  rw [marks, List.filterMap_cons_some hbegin, ← hend, ← marks_append]
  rfl

/-- A trap that was taken: the frame at its start, the answers of the handlers that were called for
it, and the traps that were taken within it. -/
structure Episode where
  frame : Frame
  answers : List Verdict
  inside : List Episode

mutual

/-- The beginnings and ends of a trap and of those within it.  The type is that of the frame at the
start, and the value of the end tells whether a handler claimed the trap. -/
def Episode.word : Episode → List Mark
  | ⟨f, answers, inside⟩ =>
    ⟨.trapEnter, f.trapType.name, f.scause⟩ :: (Episode.words inside ++
      [⟨.trapExit, f.trapType.name, if .handled ∈ answers then 1 else 0⟩])

/-- The beginnings and ends of traps that were taken one after the other. -/
def Episode.words : List Episode → List Mark
  | [] => []
  | e :: es => e.word ++ Episode.words es

end

theorem Episode.words_append (es es' : List Episode) :
    words (es ++ es') = words es ++ words es' := by
  induction es with
  | nil => rfl
  | cons e es ih => rw [List.cons_append, words, ih, words, List.append_assoc]

/-- Between two machines the trace took some events, and their beginnings and ends are those of some
episodes. -/
structure Tells (m m' : Machine σ) (events : List TraceEvent) (episodes : List Episode) :
    Prop where
  trace : m'.system.trace = m.system.trace.extend events
  marks : marks events = Episode.words episodes

namespace Tells

variable {m m₁ m' : Machine σ} {events events' : List TraceEvent}
  {episodes episodes' : List Episode}

theorem of_eq (h : m'.system.trace = m.system.trace) : Tells m m' [] [] := ⟨h, rfl⟩

theorem trans (h : Tells m m₁ events episodes) (h' : Tells m₁ m' events' episodes') :
    Tells m m' (events ++ events') (episodes ++ episodes') where
  trace := by rw [h'.trace, h.trace, Trace.extend_append]
  marks := by rw [marks_append, h.marks, h'.marks, Episode.words_append]

theorem enabled (h : Tells m m' events episodes) (hm : m.system.trace.enabled = true) :
    m'.system.trace.enabled = true := by
  rw [h.trace, Trace.enabled_extend, hm]

/-- Calls made one after the other tell what each of them tells. -/
theorem of_linked {E V : Type} {step : E → TrapState σ → V → TrapState σ → Prop}
    {calls : List (Call E V (TrapState σ))} {s s' : TrapState σ}
    {events : Call E V (TrapState σ) → List TraceEvent}
    {inside : Call E V (TrapState σ) → List Episode} (linked : Linked step s calls s')
    (each : ∀ c ∈ calls, c.before.2.system.trace.enabled = true →
      Tells c.before.2 c.after.2 (events c) (inside c))
    (hs : s.2.system.trace.enabled = true) :
    Tells s.2 s'.2 (calls.flatMap events) (calls.flatMap inside) := by
  induction linked with
  | nil s => exact .of_eq rfl
  | cons head tail ih =>
    have hhead := each _ List.mem_cons_self hs
    have htail := ih (fun c hc => each c (List.mem_cons_of_mem _ hc)) (hhead.enabled hs)
    exact hhead.trans htail

end Tells

/-! ### The parts of a trap -/

theorem Exec.ext {x y : Exec σ α} (h : ∀ m, runOn x m = runOn y m) : x = y := funext h

theorem TrapExec.ext {x y : TrapExec σ α} (h : ∀ f m, runOn x f m = runOn y f m) : x = y :=
  funext fun f => funext (h f)

theorem onMachine_pure (a : α) : onMachine (pure a : Exec σ α) = pure a := rfl

theorem onMachine_bind (x : Exec σ α) (k : α → Exec σ β) :
    onMachine (x >>= k) = onMachine x >>= fun a => onMachine (k a) := by
  refine TrapExec.ext fun f m => ?_
  rw [TrapExec.runOn_bind, TrapExec.runOn_onMachine, TrapExec.runOn_onMachine, Exec.runOn_bind]
  cases Exec.runOn x m with
  | mk r m' => cases r <;> rfl

theorem TrapExec.runOn_onFrame (x : TrapExec σ α) (f : Frame) (m : Machine σ) :
    Exec.runOn (x.onFrame f) m =
      ((runOn x f m).1.1.map (·, (runOn x f m).1.2), (runOn x f m).2) := rfl

theorem TrapExec.runOn_onFrame_eq_ok {x : TrapExec σ α} {f f' : Frame} {m m' : Machine σ} {a : α} :
    Exec.runOn (x.onFrame f) m = (.ok (a, f'), m') ↔ runOn x f m = ((.ok a, f'), m') := by
  rw [runOn_onFrame]
  cases runOn x f m with
  | mk ended m₁ =>
    obtain ⟨r, f₁⟩ := ended
    cases r with
    | error e =>
      constructor
      · intro h
        cases congrArg Prod.fst h
      · intro h
        cases congrArg (·.1.1) h
    | ok b =>
      constructor
      · rintro ⟨⟩
        rfl
      · rintro ⟨⟩
        rfl

/-- Begins a trap: the hart claims a frame slot, and the beginning is noted. -/
def startTrap (f : Frame) : Exec σ UInt32 := do
  let core ← System.currentHart
  enterTrap core f
  System.note .trapEnter f.trapType.name f.scause
  return core

section

variable [Client σ]

/-- Announces a trap and looks up the entries that it is offered to; gives where output goes as
well. -/
def prepare (f : Frame) : Exec σ (Sink × List Entry) := do
  let sink ← System.console
  announceTrap f.trapType f sink
  let entries ← entriesFor f.trapType sink
  return (sink, entries)

/-- What is said of the answer of a handler: that it failed, if it did. -/
def Entry.report (t : TrapType) (sink : Sink) (e : Entry) : Verdict → Exec σ Unit
  | .failed error => reportFailure e.description t sink error
  | _ => pure ()

/-- Calls the handler of an entry. -/
def Entry.offer (t : TrapType) (sink : Sink) (e : Entry) : TrapExec σ Verdict := do
  let v ← e.handler.run
  onMachine (e.report t sink v)
  return v

/-- The last resort, unless the trap was claimed. -/
def resort (t : TrapType) (v : Verdict) : TrapExec σ Unit :=
  if v.isHandled then pure () else fallback t

theorem Entry.answers_iff {t : TrapType} {sink : Sink} {e : Entry} {s s' : TrapState σ}
    {v : Verdict} :
    e.Answers t sink s v s' ↔
      Exec.runOn ((e.offer t sink).onFrame s.1) s.2 = (.ok (v, s'.1), s'.2) := by
  rw [TrapExec.runOn_onFrame_eq_ok]
  constructor
  · rintro ⟨m, hrun, hafter⟩
    have hreport : Exec.runOn (e.report t sink v) m = (.ok (), s'.2) := by
      cases v with
      | failed error => exact hafter
      | handled | pass => exact congrArg (Prod.mk _) hafter.symm
    have hsaid : TrapExec.runOn (onMachine (e.report t sink v)) s'.1 m =
        ((.ok (), s'.1), s'.2) := by rw [TrapExec.runOn_onMachine, hreport]
    rw [offer, TrapExec.runOn_bind_of_ok hrun, TrapExec.runOn_bind_of_ok hsaid]
    rfl
  · intro h
    obtain ⟨v₁, f₁, m₁, hrun, hrest⟩ := TrapExec.of_runOn_bind_eq_ok h
    obtain ⟨_, f₂, m₂, hsaid, hend⟩ := TrapExec.of_runOn_bind_eq_ok hrest
    obtain rfl : v₁ = v := Except.ok.inj (congrArg (·.1.1) hend)
    obtain ⟨rfl, hreport⟩ := TrapExec.onMachine_eq_ok hsaid
    obtain rfl : f₂ = s'.1 := congrArg (·.1.2) hend
    obtain rfl : m₂ = s'.2 := congrArg (·.2) hend
    refine ⟨m₁, hrun, ?_⟩
    cases v₁ with
    | failed error => exact hreport
    | handled | pass => exact (congrArg Prod.snd hreport).symm

omit [Client σ] in
theorem isHandled_verdictOf (calls : List (Call Entry Verdict (TrapState σ))) :
    (verdictOf calls).isHandled = true ↔ .handled ∈ calls.map (·.answer) := by
  rw [verdictOf]
  split
  · rename_i h
    obtain ⟨c, hc, hclaims⟩ := List.any_eq_true.1 h
    refine iff_of_true rfl (List.mem_map.2 ⟨c, hc, ?_⟩)
    cases hv : c.answer with
    | handled => rfl
    | _ => rw [hv] at hclaims; cases hclaims
  · rename_i h
    refine iff_of_false Bool.false_ne_true fun hmem => h ?_
    obtain ⟨c, hc, hv⟩ := List.mem_map.1 hmem
    exact List.any_eq_true.2 ⟨c, hc, congrArg Verdict.isHandled hv⟩

/-- A trap on a machine that is ready, part by part. -/
theorem runOn_takeTrap {m : Machine σ} (ready : m.system.ready = true) (f : Frame) :
    TrapExec.runOn takeTrap f m = TrapExec.runOn (do
      let core ← onMachine (startTrap f)
      let prepared ← onMachine (prepare f)
      let v ← dispatch f.trapType prepared.1 prepared.2
      resort f.trapType v
      onMachine (closeTrap core f.trapType v.isHandled)) f m := by
  have hresort (t : TrapType) (v : Verdict) (k : Unit → TrapExec σ Unit) :
      resort t v >>= k = if v.isHandled then k () else fallback t >>= k := by
    rw [resort]
    split <;> rfl
  rw [takeTrap_of_ready ready]
  refine congrArg (fun x : TrapExec σ Unit => x.runOn f m) ?_
  simp only [openTrap, serveTrap, startTrap, prepare, hresort, onMachine_bind, onMachine_pure,
    bind_assoc, pure_bind]

end

/-! ### What is noted of a trap -/

theorem System.note_extends (kind : EventKind) (name : Text) (value : UInt64) {m m' : Machine σ}
    (enabled : m.system.trace.enabled = true)
    (returned : Exec.runOn (System.note kind name value) m = (.ok (), m')) :
    ∃ time, m'.system.trace = m.system.trace.extend [⟨time, kind, name, value⟩] := by
  obtain ⟨p, hnoted⟩ :=
    @Machine.noted_eq_after σ Machine.theTrace (fun _ _ => rfl) kind name value m
  rw [System.runOn_note, hnoted] at returned
  obtain rfl := congrArg Prod.snd returned
  exact ⟨_, Trace.record_of_enabled enabled _ kind name value⟩

/-- The beginning of a trap is noted with its type and its cause. -/
theorem startTrap_extends {f : Frame} {core : UInt32} {m m' : Machine σ}
    (enabled : m.system.trace.enabled = true)
    (returned : Exec.runOn (startTrap f) m = (.ok core, m')) :
    ∃ time, m'.system.trace =
      m.system.trace.extend [⟨time, .trapEnter, f.trapType.name, f.scause⟩] := by
  obtain ⟨core', m₁, hcore, hrest⟩ := Exec.of_runOn_bind_eq_ok returned
  obtain ⟨_, m₂, henter, hrest⟩ := Exec.of_runOn_bind_eq_ok hrest
  obtain ⟨_, m₃, hnote, hend⟩ := Exec.of_runOn_bind_eq_ok hrest
  obtain rfl := congrArg Prod.snd hend
  have hasks : Exec.Keeps (System.currentHart (σ := σ)) (·.system.trace) :=
    System.currentHart_keeps fun _ => rfl
  have henters : Exec.Keeps (enterTrap (σ := σ) core' f) (·.system.trace) :=
    enterTrap_keeps (fun _ _ _ => rfl) (fun _ _ => rfl) core' f
  have hkept : m₂.system.trace = m.system.trace :=
    (henters.of_runOn henter).trans (hasks.of_runOn hcore)
  rw [← hkept] at enabled ⊢
  exact System.note_extends _ _ _ enabled hnote

/-- The end of a trap is noted with the type that it was begun with. -/
theorem closeTrap_extends {core : UInt32} {t : TrapType} {handled : Bool} {m m' : Machine σ}
    (enabled : m.system.trace.enabled = true)
    (returned : Exec.runOn (closeTrap core t handled) m = (.ok (), m')) :
    ∃ time, m'.system.trace =
      m.system.trace.extend [⟨time, .trapExit, t.name, if handled then 1 else 0⟩] := by
  obtain ⟨time, hnoted⟩ := System.note_extends .trapExit t.name (if handled then 1 else 0) enabled
    (System.runOn_note _ _ _ m)
  rw [runOn_closeTrap, Machine.ended] at returned
  split at returned
  · obtain rfl := congrArg Prod.snd returned
    exact ⟨time, hnoted⟩
  · cases congrArg Prod.fst returned

/-! ### Courses -/

/-- A run that returned and recorded one event. -/
structure Records (x : Exec σ α) (m : Machine σ) (e : TraceEvent) (a : α) (m' : Machine σ) :
    Prop where
  returned : Exec.runOn x m = (.ok a, m')
  trace : m'.system.trace = m.system.trace.extend [e]

/-- The course of a run of `x` from `m` that returned `a` and left `m'`: the events that were
recorded, and the traps that were taken.  A trap may have any client.  No other action records the
beginning or the end of a trap, turns tracing off or empties the trace. -/
inductive Course : {α : Type} → (x : Exec σ α) → (m : Machine σ) → (events : List TraceEvent) →
    (episodes : List Episode) → (a : α) → (m' : Machine σ) → Prop
  | quiet {α : Type} {x : Exec σ α} {m m' : Machine σ} {a : α}
      (returned : Exec.runOn x m = (.ok a, m')) (same : m'.system.trace = m.system.trace) :
      Course x m [] [] a m'
  | note {α : Type} {x : Exec σ α} {m m' : Machine σ} {e : TraceEvent} {a : α}
      (records : Records x m e a m') (other : e.kind.isMark = false) : Course x m [e] [] a m'
  | bind {α β : Type} {x : Exec σ α} {k : α → Exec σ β} {m m₁ m' : Machine σ}
      {events events' : List TraceEvent} {episodes episodes' : List Episode} {a : α} {b : β}
      (first : Course x m events episodes a m₁) (next : Course (k a) m₁ events' episodes' b m') :
      Course (x >>= k) m (events ++ events') (episodes ++ episodes') b m'
  | thenFinally {α : Type} {x : Exec σ α} {g : Machine σ → Machine σ} {m m' : Machine σ}
      {events : List TraceEvent} {episodes : List Episode} {a : α}
      (body : Course x m events episodes a m')
      (same : (g m').system.trace = m'.system.trace) :
      Course (x.finally g) m events episodes a (g m')
  | trap (client : Client σ) {f f₁ f' : Frame} {m m₁ m₂ m₃ m₄ m' : Machine σ}
      {e e' : TraceEvent} {core : UInt32} {sink : Sink} {entries : List Entry}
      {calls : List (Call Entry Verdict (TrapState σ))}
      {before after : List TraceEvent} {early late : List Episode}
      {events : Call Entry Verdict (TrapState σ) → List TraceEvent}
      {inside : Call Entry Verdict (TrapState σ) → List Episode}
      (ready : m.system.ready = true)
      (started : Records (startTrap f) m e core m₁)
      (prepared : Course (@prepare σ client f) m₁ before early (sink, entries) m₂)
      (linked : Linked (@Entry.Answers σ client f.trapType sink) (f, m₂) calls (f₁, m₃))
      (upTo : UpTo Verdict.Claims entries calls)
      (each : ∀ c ∈ calls, Course ((@Entry.offer σ client f.trapType sink c.entry).onFrame
        c.before.1) c.before.2 (events c) (inside c) (c.answer, c.after.1) c.after.2)
      (resorted : Course ((@resort σ client f.trapType (verdictOf calls)).onFrame f₁) m₃ after late
        ((), f') m₄)
      (closed : Records (closeTrap core f.trapType (verdictOf calls).isHandled) m₄ e' () m') :
      Course ((@takeTrap σ client).onFrame f) m
        (e :: (before ++ calls.flatMap events ++ after ++ [e']))
        [⟨f, calls.map (·.answer), early ++ calls.flatMap inside ++ late⟩] ((), f') m'

/-- A course leads to where the run ends. -/
theorem Course.runs {x : Exec σ α} {m m' : Machine σ} {events : List TraceEvent}
    {episodes : List Episode} {a : α} (h : Course x m events episodes a m') :
    Exec.runOn x m = (.ok a, m') := by
  induction h with
  | quiet returned _ => exact returned
  | note records _ => exact records.returned
  | bind _ _ hfirst hnext => rw [Exec.runOn_bind_of_ok hfirst, hnext]
  | thenFinally _ _ hbody => rw [Exec.runOn_finally, hbody]
  | @trap client f f₁ f' m m₁ m₂ m₃ m₄ m' _ _ core sink entries calls _ _ _ _ _ _ ready started _
      linked upTo _ _ closed hprepared _ hresorted =>
    have hstart : TrapExec.runOn (onMachine (startTrap f)) f m = ((.ok core, f), m₁) := by
      rw [TrapExec.runOn_onMachine, started.returned]
    have hprepare : TrapExec.runOn (onMachine (@prepare σ client f)) f m₁ =
        ((.ok (sink, entries), f), m₂) := by rw [TrapExec.runOn_onMachine, hprepared]
    have hclose : TrapExec.runOn
        (onMachine (closeTrap core f.trapType (verdictOf calls).isHandled)) f' m₄ =
        ((.ok (), f'), m') := by rw [TrapExec.runOn_onMachine, closed.returned]
    -- the calls are what the dispatch does, whatever course each of them takes
    refine TrapExec.runOn_onFrame_eq_ok.2 ?_
    rw [@runOn_takeTrap σ client m ready f, TrapExec.runOn_bind_of_ok hstart,
      TrapExec.runOn_bind_of_ok hprepare,
      TrapExec.runOn_bind_of_ok (@dispatch_of_walk σ client _ _ _ _ _ _ linked upTo),
      TrapExec.runOn_bind_of_ok (TrapExec.runOn_onFrame_eq_ok.1 hresorted), hclose]

/-- While tracing is enabled, the beginnings and ends that a course records are those of its
traps. -/
theorem Course.tells {x : Exec σ α} {m m' : Machine σ} {events : List TraceEvent}
    {episodes : List Episode} {a : α} (h : Course x m events episodes a m')
    (enabled : m.system.trace.enabled = true) : Tells m m' events episodes := by
  induction h with
  | quiet _ same => exact .of_eq same
  | note records other => exact ⟨records.trace, marks_of_other other⟩
  | bind _ _ hfirst hnext =>
    have hthen := hfirst enabled
    exact hthen.trans (hnext (hthen.enabled enabled))
  | thenFinally _ same hbody => exact ⟨by rw [same, (hbody enabled).trace], (hbody enabled).marks⟩
  | @trap client f f₁ f' m m₁ m₂ m₃ m₄ m' e e' _ _ _ calls before after early late events inside
      _ started _ linked _ _ _ closed hprepared heach hresorted =>
    -- the trace tells which event it took last, so `e` is the one that the trap notes
    obtain ⟨time, hbegin⟩ := startTrap_extends enabled started.returned
    obtain rfl := Trace.extend_singleton_inj (started.trace.symm.trans hbegin)
    have henabled : m₁.system.trace.enabled = true := by
      rw [started.trace, Trace.enabled_extend, enabled]
    -- all between the beginning and the end, as one series of events
    have hearly := hprepared henabled
    have hcalls := Tells.of_linked linked heach (hearly.enabled henabled)
    have hlate := hresorted (hcalls.enabled (hearly.enabled henabled))
    have hwithin : Tells m₁ m₄ (before ++ calls.flatMap events ++ after)
        (early ++ calls.flatMap inside ++ late) := (hearly.trans hcalls).trans hlate
    obtain ⟨time', hend⟩ := closeTrap_extends (hwithin.enabled henabled) closed.returned
    obtain rfl := Trace.extend_singleton_inj (closed.trace.symm.trans hend)
    refine ⟨?_, ?_⟩
    · rw [closed.trace, hwithin.trace, started.trace, ← Trace.extend_append,
        ← Trace.extend_append]
      rfl
    · have hvalue : (if (verdictOf calls).isHandled then 1 else 0 : UInt64) =
          if .handled ∈ calls.map (·.answer) then 1 else 0 :=
        if_congr (isHandled_verdictOf calls) rfl rfl
      rw [marks_trap, hwithin.marks, hvalue, Episode.words, Episode.words, List.append_nil,
        Episode.word]

end Supervisor
