/-
What actions do.

* `Exec.Returns x` — the action `x` never stops the run;
* `Exec.Stops x` — the action `x` always does;
* `Exec.Keeps x view` — the action `x` leaves what `view` sees of the machine as it was;
* `Exec.Leads x R` — the action `x` leads from each machine to one that `R` relates to it;
* `Exec.Upholds x I K` — the action `x` returns where `I` holds again, or stops where `K` holds;
* `TrapExec.ActsAs x g` — the action `x` of a trap returns and changes the frame by `g`;
* `runOn_locked` — what an action does under a lock that nobody holds;
* `Machine.hart`, `Machine.asked` — the number of the running hart, and what the question for it
  does.

The first six go through sequences and choices, so they are read off the text of an action.
What is written to the console is shown to the clients, and so an action that writes returns only
if they do: `ConsoleReturns`.
-/
import Supervisor.Trap.Handling
import Mathlib.Order.Defs.Unbundled

namespace Supervisor

variable {σ α β A : Type}

/-! ### Actions that return -/

/-- An action that returns, whatever the machine. -/
def Exec.Returns (x : Exec σ α) : Prop := ∀ m, ∃ a m', Exec.runOn x m = (.ok a, m')

/-- Whoever observes the console lets the run go on. -/
def ConsoleReturns (σ : Type) [Client σ] : Prop :=
  ∀ text, Exec.Returns (Client.written (σ := σ) text)

namespace Exec.Returns

theorem pure (a : α) : Returns (Pure.pure a : Exec σ α) := fun m => ⟨a, m, rfl⟩

theorem bind {x : Exec σ α} {f : α → Exec σ β} (hx : Returns x) (hf : ∀ a, Returns (f a)) :
    Returns (x >>= f) := by
  intro m
  obtain ⟨a, m', ha⟩ := hx m
  obtain ⟨b, m'', hb⟩ := hf a m'
  exact ⟨b, m'', by rw [Exec.runOn_bind_of_ok ha, hb]⟩

theorem get : Returns (getThe (Machine σ) : Exec σ (Machine σ)) := fun m => ⟨m, m, rfl⟩

theorem modify (f : Machine σ → Machine σ) : Returns (modify f : Exec σ Unit) :=
  fun m => ⟨(), f m, rfl⟩

theorem read (p : Part (Machine σ) A) : Returns p.read := fun m => ⟨_, m, rfl⟩

theorem change (p : Part (Machine σ) A) (f : A → β × A) : Returns (p.change f) :=
  fun _ => ⟨_, _, rfl⟩

theorem update (p : Part (Machine σ) A) (f : A → A) : Returns (p.update f) :=
  fun _ => ⟨_, _, rfl⟩

theorem ite {c : Prop} [Decidable c] {x y : Exec σ α} (hx : Returns x) (hy : Returns y) :
    Returns (if c then x else y) := by
  split
  · exact hx
  · exact hy

end Exec.Returns

theorem traceEvent_returns (trace : Part (Machine σ) Trace) (kind : EventKind) (name : Text)
    (value : UInt64) : Exec.Returns (traceEvent trace kind name value) := by
  refine .bind (.read trace) fun t => .ite ?_ (.pure false)
  have hrecord (now : UInt64) : Exec.Returns (do
      trace.update (·.record now kind name value)
      return true) := .bind (.update _ _) fun _ => .pure true
  exact .ite (.bind (.change _ _) hrecord) (.bind (.pure 0) hrecord)

theorem System.note_returns (kind : EventKind) (name : Text) (value : UInt64) :
    Exec.Returns (System.note (σ := σ) kind name value) :=
  .bind (traceEvent_returns _ _ _ _) fun _ => .pure ()

theorem System.console_returns : Exec.Returns (System.console (σ := σ)) :=
  .bind .get fun _ => .pure _

theorem System.hasFirmware_returns : Exec.Returns (System.hasFirmware (σ := σ)) :=
  .bind .get fun _ => .pure _

theorem puts_returns [Client σ] (h : ConsoleReturns σ) (sink : Sink) (t : Text) :
    Exec.Returns (puts (σ := σ) sink t) := by
  cases sink with
  | nowhere => exact .pure ()
  | console => exact .bind (.update _ _) fun _ => h _

theorem putLine_returns [Client σ] (h : ConsoleReturns σ) (sink : Sink) (pieces : List Text) :
    Exec.Returns (putLine (σ := σ) sink pieces) := puts_returns h sink _

/-! ### Actions that stop -/

/-- An action that never returns. -/
def Exec.Stops (x : Exec σ α) : Prop := ∀ m a m', Exec.runOn x m ≠ (.ok a, m')

namespace Exec.Stops

theorem throw (e : Stop) : Stops (throw e : Exec σ α) :=
  fun _ _ _ h => by cases congrArg Prod.fst h

/-- A sequence does not return if its last part does not. -/
theorem bind {x : Exec σ α} {f : α → Exec σ β} (hf : ∀ a, Stops (f a)) : Stops (x >>= f) := by
  intro m b m' h
  obtain ⟨a, m₁, -, hthen⟩ := Exec.of_runOn_bind_eq_ok h
  exact hf a m₁ b m' hthen

/-- A sequence does not return if its first part does not. -/
theorem of_first {x : Exec σ α} (hx : Stops x) (f : α → Exec σ β) : Stops (x >>= f) := by
  intro m b m' h
  obtain ⟨a, m₁, hfirst, -⟩ := Exec.of_runOn_bind_eq_ok h
  exact hx m a m₁ hfirst

theorem ite {c : Prop} [Decidable c] {x y : Exec σ α} (hx : Stops x) (hy : Stops y) :
    Stops (if c then x else y) := by
  split
  · exact hx
  · exact hy

end Exec.Stops

theorem panic_stops (message : Text) : Exec.Stops (panic message : Exec σ α) :=
  .bind fun _ => .throw _

/-! ### Actions that keep a part of the machine -/

/-- An action that leaves what `view` sees of the machine as it was, however it ends. -/
def Exec.Keeps (x : Exec σ α) (view : Machine σ → A) : Prop :=
  ∀ m, view (Exec.runOn x m).2 = view m

namespace Exec.Keeps

variable {view : Machine σ → A}

theorem pure (a : α) : Keeps (Pure.pure a : Exec σ α) view := fun _ => rfl

theorem bind {x : Exec σ α} {f : α → Exec σ β} (hx : Keeps x view) (hf : ∀ a, Keeps (f a) view) :
    Keeps (x >>= f) view := by
  intro m
  have hm := hx m
  rw [Exec.runOn_bind]
  split
  · rename_i a m' heq
    rw [heq] at hm
    rw [hf a m', hm]
  · rename_i e m' heq
    rw [heq] at hm
    exact hm

theorem read (p : Part (Machine σ) β) : Keeps p.read view := fun _ => rfl

/-- A change of one part is not seen by a view of another one. -/
theorem change {p : Part (Machine σ) β} (h : ∀ b m, view (p.set b m) = view m) (f : β → α × β) :
    Keeps (p.change f) view := fun m => h _ m

theorem update {p : Part (Machine σ) β} (h : ∀ b m, view (p.set b m) = view m) (f : β → β) :
    Keeps (p.update f) view := fun m => h _ m

theorem ite {c : Prop} [Decidable c] {x y : Exec σ α} (hx : Keeps x view) (hy : Keeps y view) :
    Keeps (if c then x else y) view := by
  split
  · exact hx
  · exact hy

theorem throw (e : Stop) : Keeps (throw e : Exec σ α) view := fun _ => rfl

theorem get : Keeps (getThe (Machine σ) : Exec σ (Machine σ)) view := fun _ => rfl

theorem thenFinally {x : Exec σ α} {f : Machine σ → Machine σ} (hx : Keeps x view)
    (hf : ∀ m, view (f m) = view m) : Keeps (x.finally f) view := by
  intro m
  rw [Exec.runOn_finally]
  exact (hf _).trans (hx m)

theorem withLock {lock : Part (Machine σ) Spinlock} (hlock : ∀ l m, view (lock.set l m) = view m)
    {body refused : Exec σ α} (hbody : Keeps body view) (hrefused : Keeps refused view)
    (core : UInt32) : Keeps (withLock lock core body refused) view := by
  refine .bind (.read lock) fun l => ?_
  split
  · exact .bind (.update hlock _) fun _ => hbody.thenFinally fun m => hlock _ m
  · exact hrefused
  · exact .throw _

/-- What an action keeps can be read off any machine that it leaves. -/
theorem of_runOn {x : Exec σ α} (h : Keeps x view) {m m' : Machine σ} {r : Except Stop α}
    (hr : Exec.runOn x m = (r, m')) : view m' = view m := by
  have := h m
  rwa [hr] at this

end Exec.Keeps

theorem traceEvent_keeps {view : Machine σ → A} {trace : Part (Machine σ) Trace}
    (hclock : ∀ m, view (Machine.thePlatform.set m.platform.time.2 m) = view m)
    (htrace : ∀ t m, view (trace.set t m) = view m) (kind : EventKind) (name : Text)
    (value : UInt64) : Exec.Keeps (traceEvent trace kind name value) view := by
  refine .bind (.read trace) fun t => .ite ?_ (.pure false)
  have hrecord (now : UInt64) : Exec.Keeps (do
      trace.update (·.record now kind name value)
      return true) view := .bind (.update htrace _) fun _ => .pure true
  exact .ite (.bind hclock hrecord) (.bind (.pure 0) hrecord)

theorem System.note_keeps {view : Machine σ → A}
    (hclock : ∀ m, view (Machine.thePlatform.set m.platform.time.2 m) = view m)
    (htrace : ∀ t m, view (Machine.theTrace.set t m) = view m) (kind : EventKind) (name : Text)
    (value : UInt64) : Exec.Keeps (System.note kind name value) view :=
  .bind (traceEvent_keeps hclock htrace kind name value) fun _ => .pure ()

theorem System.console_keeps {view : Machine σ → A} :
    Exec.Keeps (System.console (σ := σ)) view := .bind .get fun _ => .pure _

theorem System.currentHart_keeps {view : Machine σ → A}
    (hhart : ∀ m, view (Machine.thePlatform.set m.platform.hartId.2 m) = view m) :
    Exec.Keeps (System.currentHart (σ := σ)) view := .bind .get fun _ => .ite hhart (.pure 0)

theorem System.locked_keeps {view : Machine σ → A}
    (hhart : ∀ m, view (Machine.thePlatform.set m.platform.hartId.2 m) = view m)
    (hlock : ∀ l m, view (Machine.theLock.set l m) = view m) {body refused : Exec σ α}
    (hbody : Exec.Keeps body view) (hrefused : Exec.Keeps refused view) :
    Exec.Keeps (System.locked body refused) view :=
  .bind (System.currentHart_keeps hhart) fun core => .withLock hlock hbody hrefused core

theorem putLine_keeps [Client σ] {view : Machine σ → A}
    (hwrite : ∀ t m, view (Machine.thePlatform.set (m.platform.write t) m) = view m)
    (hwritten : ∀ text, Exec.Keeps (Client.written (σ := σ) text) view) (sink : Sink)
    (pieces : List Text) : Exec.Keeps (putLine (σ := σ) sink pieces) view := by
  cases sink with
  | nowhere => exact .pure ()
  | console => exact .bind (hwrite _) fun _ => hwritten _

section

variable {view : Machine σ → A}
  (hnest : ∀ level nesting m, view { m with level, system.nesting := nesting } = view m)
  (hwrite : ∀ t m, view (Machine.thePlatform.set (m.platform.write t) m) = view m)

include hnest hwrite

theorem enterTrap_keeps (core : UInt32) (f : Frame) :
    Exec.Keeps (enterTrap (σ := σ) core f) view := by
  intro m
  rw [enterTrap, Exec.runOn_bind_of_ok (Exec.runOn_get m)]
  split
  · exact hwrite _ m
  · exact hnest _ _ m

theorem leaveTrap_keeps (core : UInt32) : Exec.Keeps (leaveTrap (σ := σ) core) view := by
  intro m
  rw [leaveTrap, Exec.runOn_bind_of_ok (Exec.runOn_get m)]
  split
  · exact hwrite _ m
  · exact hnest _ _ m

end

/-! ### Actions that lead along a relation -/

/-- An action that leads from each machine to one that `R` relates to it, however it ends. -/
def Exec.Leads (x : Exec σ α) (R : Machine σ → Machine σ → Prop) : Prop :=
  ∀ m, R m (Exec.runOn x m).2

/-- An action of a trap that leads from each machine to one that `R` relates to it. -/
def TrapExec.Leads (x : TrapExec σ α) (R : Machine σ → Machine σ → Prop) : Prop :=
  ∀ f m, R m (TrapExec.runOn x f m).2

section Leads

variable {R : Machine σ → Machine σ → Prop}

namespace Exec.Leads

/-- What is kept in view does not lead away, if `R` looks no further. -/
theorem of_keeps {view : Machine σ → A} {x : Exec σ α} (hx : Keeps x view)
    (hR : ∀ m m', view m' = view m → R m m') : Leads x R := fun m => hR _ _ (hx m)

theorem of_runOn {x : Exec σ α} (h : Leads x R) {m m' : Machine σ} {r : Except Stop α}
    (hr : Exec.runOn x m = (r, m')) : R m m' := by
  have := h m
  rwa [hr] at this

variable [IsPreorder (Machine σ) R]

theorem pure (a : α) : Leads (Pure.pure a : Exec σ α) R := fun m => refl_of R m

theorem bind {x : Exec σ α} {f : α → Exec σ β} (hx : Leads x R) (hf : ∀ a, Leads (f a) R) :
    Leads (x >>= f) R := by
  intro m
  have hm := hx m
  cases hrun : Exec.runOn x m with
  | mk r m' =>
    rw [hrun] at hm
    cases r with
    | ok a =>
      rw [Exec.runOn_bind_of_ok hrun]
      exact trans_of R hm (hf a m')
    | error e =>
      rw [Exec.runOn_bind_of_error hrun]
      exact hm

omit [IsPreorder (Machine σ) R] in
theorem ite {c : Prop} [Decidable c] {x y : Exec σ α} (hx : Leads x R) (hy : Leads y R) :
    Leads (if c then x else y) R := by
  split
  · exact hx
  · exact hy

theorem get : Leads (getThe (Machine σ) : Exec σ (Machine σ)) R := fun m => refl_of R m

theorem read (p : Part (Machine σ) A) : Leads p.read R := fun m => refl_of R m

theorem throw (e : Stop) : Leads (throw e : Exec σ α) R := fun m => refl_of R m

theorem tryCatch {x : Exec σ α} {h : Stop → Exec σ α} (hx : Leads x R) (hh : ∀ e, Leads (h e) R) :
    Leads (tryCatch x h) R := by
  intro m
  have hm := hx m
  rw [Exec.runOn_tryCatch]
  split
  · rename_i a m' heq
    rw [heq] at hm
    exact hm
  · rename_i e m' heq
    rw [heq] at hm
    exact trans_of R hm (hh e m')

theorem forM {l : List A} {f : A → Exec σ PUnit} (h : ∀ a ∈ l, Leads (f a) R) :
    Leads (l.forM f) R := by
  induction l with
  | nil => exact pure _
  | cons a l ih =>
    exact bind (h a List.mem_cons_self) fun _ => ih fun b hb => h b (List.mem_cons_of_mem a hb)

end Exec.Leads

section

variable [IsPreorder (Machine σ) R] [Client σ]
  (hwrite : ∀ t m, R m (Machine.thePlatform.set (m.platform.write t) m))
  (hwritten : ∀ text, Exec.Leads (Client.written (σ := σ) text) R)

include hwrite hwritten

theorem puts_leads (sink : Sink) (t : Text) : Exec.Leads (puts (σ := σ) sink t) R := by
  cases sink with
  | nowhere => exact .pure ()
  | console => exact .bind (fun m => hwrite _ m) fun _ => hwritten _

theorem putLine_leads (sink : Sink) (pieces : List Text) :
    Exec.Leads (putLine (σ := σ) sink pieces) R := puts_leads hwrite hwritten sink _

end

namespace TrapExec.Leads

variable [IsPreorder (Machine σ) R]

theorem bind {x : TrapExec σ α} {k : α → TrapExec σ β} (hx : Leads x R) (hk : ∀ a, Leads (k a) R) :
    Leads (x >>= k) R := by
  intro f m
  have hm := hx f m
  rw [TrapExec.runOn_bind]
  split
  · rename_i a f' m' heq
    rw [heq] at hm
    exact trans_of R hm (hk a f' m')
  · rename_i e f' m' heq
    rw [heq] at hm
    exact hm

omit [IsPreorder (Machine σ) R] in
theorem onMachine {x : Exec σ α} (hx : Exec.Leads x R) : Leads (onMachine x) R := fun _ m => hx m

end TrapExec.Leads

end Leads

/-! ### Actions that uphold an invariant -/

/-- An action that, begun where `I` holds, returns where `I` holds again or else stops where `K`
holds. -/
def Exec.Upholds (x : Exec σ α) (I K : Machine σ → Prop) : Prop :=
  ∀ m, I m →
    match Exec.runOn x m with
    | (.ok _, m') => I m'
    | (.error _, m') => K m'

namespace Exec.Upholds

variable {I K : Machine σ → Prop}

/-- The two ways in which the action may end. -/
theorem ends {x : Exec σ α} (hx : Upholds x I K) {m : Machine σ} (hm : I m) :
    (∃ a m', Exec.runOn x m = (.ok a, m') ∧ I m') ∨
      ∃ e m', Exec.runOn x m = (.error e, m') ∧ K m' := by
  have hend := hx m hm
  cases hrun : Exec.runOn x m with
  | mk r m' =>
    rw [hrun] at hend
    cases r with
    | ok a => exact .inl ⟨a, m', rfl, hend⟩
    | error e => exact .inr ⟨e, m', rfl, hend⟩

theorem pure (a : α) : Upholds (Pure.pure a : Exec σ α) I K := fun _ h => h

theorem bind {x : Exec σ α} {f : α → Exec σ β} (hx : Upholds x I K) (hf : ∀ a, Upholds (f a) I K) :
    Upholds (x >>= f) I K := by
  intro m hm
  obtain ⟨a, m', hrun, hm'⟩ | ⟨e, m', hrun, hm'⟩ := hx.ends hm
  · rw [Exec.runOn_bind_of_ok hrun]
    exact hf a m' hm'
  · rw [Exec.runOn_bind_of_error hrun]
    exact hm'

theorem ite {c : Prop} [Decidable c] {x y : Exec σ α} (hx : Upholds x I K) (hy : Upholds y I K) :
    Upholds (if c then x else y) I K := by
  split
  · exact hx
  · exact hy

theorem throw (h : ∀ m, I m → K m) (e : Stop) : Upholds (throw e : Exec σ α) I K := h

theorem get : Upholds (getThe (Machine σ) : Exec σ (Machine σ)) I K := fun _ h => h

theorem read (p : Part (Machine σ) A) : Upholds p.read I K := fun _ h => h

theorem change {p : Part (Machine σ) A} {f : A → β × A}
    (h : ∀ m, I m → I (p.set (f (p.get m)).2 m)) : Upholds (p.change f) I K := h

theorem update {p : Part (Machine σ) A} {f : A → A} (h : ∀ m, I m → I (p.set (f (p.get m)) m)) :
    Upholds (p.update f) I K := h

/-- What an action leads to is upheld, however it ends. -/
theorem of_leads {R : Machine σ → Machine σ → Prop} [IsPreorder (Machine σ) R] {x : Exec σ α}
    (hx : Leads x R) {start : Machine σ} : Upholds x (R start) (R start) := by
  intro m hm
  have hled := trans_of R hm (hx m)
  cases hrun : Exec.runOn x m with
  | mk r m' =>
    rw [hrun] at hled
    cases r <;> exact hled

/-- What an action keeps in view is upheld, however it ends. -/
theorem of_keeps {view : Machine σ → A} {x : Exec σ α} (hx : Keeps x view)
    (hI : ∀ m m', view m' = view m → I m → I m') : Upholds x I I := by
  intro m hm
  have hm' := hI m _ (hx m) hm
  cases hrun : Exec.runOn x m with
  | mk r m' =>
    rw [hrun] at hm'
    cases r <;> exact hm'

theorem tryCatch {x : Exec σ α} {h : Stop → Exec σ α} (hx : Upholds x I I)
    (hh : ∀ e, Upholds (h e) I I) : Upholds (tryCatch x h) I I := by
  intro m hm
  rw [Exec.runOn_tryCatch]
  obtain ⟨a, m', hrun, hm'⟩ | ⟨e, m', hrun, hm'⟩ := hx.ends hm
  · rw [hrun]
    exact hm'
  · rw [hrun]
    exact hh e m' hm'

/-- What is upheld by an action and by a change after it is upheld by both. -/
theorem thenFinally {x : Exec σ α} {f : Machine σ → Machine σ} (hx : Upholds x I K)
    (hI : ∀ m, I m → I (f m)) (hK : ∀ m, K m → K (f m)) : Upholds (x.finally f) I K := by
  intro m hm
  rw [Exec.runOn_finally]
  obtain ⟨a, m', hrun, hm'⟩ | ⟨e, m', hrun, hm'⟩ := hx.ends hm
  · rw [hrun]
    exact hI m' hm'
  · rw [hrun]
    exact hK m' hm'

theorem withLock {lock : Part (Machine σ) Spinlock} (hlock : ∀ l m, I m → I (lock.set l m))
    {body refused : Exec σ α} (hbody : Upholds body I I) (hrefused : Upholds refused I I)
    (core : UInt32) : Upholds (withLock lock core body refused) I I := by
  refine .bind (.read lock) fun l => ?_
  split
  · exact .bind (.update fun m => hlock _ m) fun _ =>
      hbody.thenFinally (fun m => hlock _ m) fun m => hlock _ m
  · exact hrefused
  · exact .throw (fun _ h => h) _

/-- An action that is not let stop returns, and the invariant holds. -/
theorem returns {x : Exec σ α} (hx : Upholds x I fun _ => False) {m : Machine σ} (hm : I m) :
    ∃ a m', Exec.runOn x m = (.ok a, m') ∧ I m' := by
  obtain hreturned | ⟨e, m', -, hfalse⟩ := hx.ends hm
  · exact hreturned
  · exact hfalse.elim

/-- An invariant that is upheld however the action ends holds after it. -/
theorem after {x : Exec σ α} (hx : Upholds x I I) {m : Machine σ} (hm : I m) :
    I (Exec.runOn x m).2 := by
  obtain ⟨a, m', hrun, hm'⟩ | ⟨e, m', hrun, hm'⟩ := hx.ends hm
  · rwa [hrun]
  · rwa [hrun]

end Exec.Upholds

/-! ### Actions of traps -/

/-- An action of a trap that returns and changes the frame by `g`. -/
def TrapExec.ActsAs (x : TrapExec σ α) (g : Frame → Frame) : Prop :=
  ∀ f m, ∃ a m', TrapExec.runOn x f m = ((.ok a, g f), m')

theorem TrapExec.runOn_bind_of_ok {x : TrapExec σ α} {k : α → TrapExec σ β} {f f' : Frame}
    {m m' : Machine σ} {a : α} (h : TrapExec.runOn x f m = ((.ok a, f'), m')) :
    TrapExec.runOn (x >>= k) f m = TrapExec.runOn (k a) f' m' := by
  rw [TrapExec.runOn_bind, h]

namespace TrapExec.ActsAs

theorem bind {x : TrapExec σ α} {k : α → TrapExec σ β} {g h : Frame → Frame} (hx : ActsAs x g)
    (hk : ∀ a, ActsAs (k a) h) : ActsAs (x >>= k) (h ∘ g) := by
  intro f m
  obtain ⟨a, m', ha⟩ := hx f m
  obtain ⟨b, m'', hb⟩ := hk a (g f) m'
  exact ⟨b, m'', by rw [TrapExec.runOn_bind_of_ok ha, hb]; rfl⟩

theorem bind_of_id {x : TrapExec σ α} {k : α → TrapExec σ β} {g : Frame → Frame} (hx : ActsAs x id)
    (hk : ∀ a, ActsAs (k a) g) : ActsAs (x >>= k) g := hx.bind hk

theorem onMachine {x : Exec σ α} (h : Exec.Returns x) : ActsAs (onMachine x) id := by
  intro f m
  obtain ⟨a, m', ha⟩ := h m
  exact ⟨a, m', by rw [TrapExec.runOn_onMachine, ha]; rfl⟩

end TrapExec.ActsAs

/-! ### Actions under a lock -/

/-- The lock is there for the taking exactly if its flag is clear. -/
theorem Spinlock.acquire_of_free {l : Spinlock} (h : l.flag = false) (core : UInt32) :
    l.acquire core = .granted ⟨true, core⟩ := by
  rw [acquire, tryAcquire_eq_some_iff.2 ⟨h, rfl⟩]

/-- An action asks for the number of the running hart, which may draw one. -/
def AsksHart (hart : Exec σ UInt32) : Prop :=
  ∀ m, ∃ core p, Exec.runOn hart m = (.ok core, Machine.thePlatform.set p m)

theorem lock_apart_platform : (Machine.theLock (σ := σ)).Apart Machine.thePlatform := fun _ _ => rfl

/-- Under a lock that nobody holds, the body runs on a machine whose lock is taken and which is
the same otherwise, but for the platform; then the lock is given back. -/
theorem runOn_locked {lock : Part (Machine σ) Spinlock} {hart : Exec σ UInt32}
    (hhart : AsksHart hart) (happart : lock.Apart Machine.thePlatform) (body refused : Exec σ α)
    {m : Machine σ} (hfree : (lock.get m).flag = false) :
    ∃ core p, Exec.runOn hart m = (.ok core, Machine.thePlatform.set p m) ∧
      Exec.runOn (do withLock lock (← hart) body refused) m =
        Exec.runOn (body.finally fun m => lock.set (lock.get m).release m)
          (lock.set ⟨true, core⟩ (Machine.thePlatform.set p m)) := by
  obtain ⟨core, p, hcore⟩ := hhart m
  refine ⟨core, p, hcore, ?_⟩
  have hget : lock.get (Machine.thePlatform.set p m) = lock.get m := happart p m
  rw [Exec.runOn_bind_of_ok hcore]
  refine withLock_of_granted (Spinlock.acquire_of_free ?_ core)
  rw [hget]
  exact hfree

/-- Under a lock that is taken nothing happens: the hart is turned away if it is the one that holds
the lock, or waits. -/
theorem runOn_locked_of_taken {lock : Part (Machine σ) Spinlock} {hart : Exec σ UInt32}
    (hhart : AsksHart hart) (happart : lock.Apart Machine.thePlatform) (body : Exec σ α) (a : α)
    {m : Machine σ} (htaken : (lock.get m).flag = true) :
    ∃ core r p, Exec.runOn hart m = (.ok core, Machine.thePlatform.set p m) ∧
      ((lock.get m).isHeldBy core = true ∧ r = .ok a ∨ r = .error .waits) ∧
      Exec.runOn (do withLock lock (← hart) body (return a)) m =
        (r, Machine.thePlatform.set p m) := by
  obtain ⟨core, p, hcore⟩ := hhart m
  -- to ask for the number of the hart may change the platform, but not the lock
  have hget : lock.get (Machine.thePlatform.set p m) = lock.get m := happart p m
  have htry : (lock.get m).tryAcquire core = none := by rw [Spinlock.tryAcquire, if_pos htaken]
  rw [Exec.runOn_bind_of_ok hcore]
  cases hheld : (lock.get m).isHeldBy core with
  | true =>
    refine ⟨core, .ok a, p, hcore, .inl ⟨hheld, rfl⟩, withLock_of_refused ?_⟩
    rw [hget, Spinlock.acquire, htry, hheld]
    rfl
  | false =>
    refine ⟨core, .error .waits, p, hcore, .inr rfl, ?_⟩
    rw [withLock, Exec.runOn_bind_of_ok (Part.runOn_read _ _), hget, Spinlock.acquire, htry, hheld]
    rfl

theorem asksHart_hartId : AsksHart (hartId (σ := σ)) := fun m => ⟨_, _, Part.runOn_change _ _ m⟩

theorem System.asksHart_currentHart : AsksHart (System.currentHart (σ := σ)) := by
  intro m
  rw [System.currentHart, Exec.runOn_bind_of_ok (Exec.runOn_get m)]
  split
  · exact asksHart_hartId m
  · exact ⟨0, m.platform, rfl⟩

/-! ### The running hart -/

theorem Platform.hartId_fst (p : Platform) :
    p.hartId.1 = p.forcedHart.getD (p.hart.getD p.nextHart) := by
  rw [hartId]
  cases p.forcedHart with
  | some id => rfl
  | none => cases p.hart <;> rfl

theorem Platform.hartId_fst_congr {p p' : Platform} (hforced : p'.forcedHart = p.forcedHart)
    (hhart : p'.hart = p.hart) (hnext : p'.nextHart = p.nextHart) :
    p'.hartId.1 = p.hartId.1 := by
  rw [hartId_fst, hartId_fst, hforced, hhart, hnext]

/-- The question for the number of the hart changes at most the numbers. -/
theorem Platform.hartId_snd_eq (p : Platform) :
    ∃ hart next, p.hartId.2 = { p with hart := hart, nextHart := next } := by
  rw [hartId]
  split <;> exact ⟨_, _, rfl⟩

/-- A hart that was given its number keeps it. -/
theorem Platform.hartId_snd (p : Platform) :
    p.hartId.2.interfaces = p.interfaces ∧ p.hartId.2.shutdowns = p.shutdowns ∧
      p.hartId.2.hartId.1 = p.hartId.1 := by
  rw [hartId_fst, hartId_fst, hartId]
  cases hforced : p.forcedHart with
  | some id => exact ⟨rfl, rfl, by rw [hforced]⟩
  | none =>
    cases hhart : p.hart with
    | some id => exact ⟨rfl, rfl, by rw [hforced, hhart]⟩
    | none => exact ⟨rfl, rfl, rfl⟩

namespace Machine

/-- The number that the running hart goes by: zero while the system does not know its platform. -/
def hart (m : Machine σ) : UInt32 := if m.system.bound then m.platform.hartId.1 else 0

/-- The machine once its hart was asked for its number, which may draw one. -/
def asked (m : Machine σ) : Machine σ :=
  if m.system.bound then thePlatform.set m.platform.hartId.2 m else m

/-- Only the numbers on the platform count for the number of a hart. -/
theorem hart_congr {m m' : Machine σ} (hbound : m'.system.bound = m.system.bound)
    (hplatform : m'.platform.hartId.1 = m.platform.hartId.1) : m'.hart = m.hart := by
  rw [hart, hart, hbound, hplatform]

/-- A hart that asks for its number changes at most the numbers on the platform. -/
theorem asked_eq (m : Machine σ) :
    ∃ hart next, m.asked = { m with platform.hart := hart, platform.nextHart := next } := by
  rw [asked]
  split
  · obtain ⟨hart, next, h⟩ := m.platform.hartId_snd_eq
    exact ⟨hart, next, by rw [h]; rfl⟩
  · exact ⟨m.platform.hart, m.platform.nextHart, rfl⟩

@[simp] theorem system_asked (m : Machine σ) : m.asked.system = m.system := by
  obtain ⟨hart, next, h⟩ := m.asked_eq
  rw [h]

@[simp] theorem hart_asked (m : Machine σ) : m.asked.hart = m.hart := by
  refine hart_congr (by rw [system_asked]) ?_
  rw [asked]
  split
  · exact m.platform.hartId_snd.2.2
  · rfl

end Machine

theorem System.runOn_currentHart (m : Machine σ) :
    Exec.runOn System.currentHart m = (.ok m.hart, m.asked) := by
  rw [currentHart, Exec.runOn_bind_of_ok (Exec.runOn_get m), Machine.hart, Machine.asked]
  split <;> rfl

/-- A part that lies apart from the platform is the same once the hart was asked. -/
theorem Part.Apart.get_asked {p : Part (Machine σ) A} (h : p.Apart Machine.thePlatform)
    (m : Machine σ) : p.get m.asked = p.get m := by
  rw [Machine.asked]
  split
  · exact h _ m
  · rfl

section

variable {lock : Part (Machine σ) Spinlock} (happart : lock.Apart Machine.thePlatform)

include happart

/-- A hart that finds a lock free runs the body under it and then gives it back. -/
theorem System.runOn_withLock_of_free (body refused : Exec σ α) {m : Machine σ}
    (free : (lock.get m).flag = false) :
    Exec.runOn (do withLock lock (← currentHart) body refused) m =
      Exec.runOn (body.finally fun m => lock.set (lock.get m).release m)
        (lock.set ⟨true, m.hart⟩ m.asked) := by
  rw [Exec.runOn_bind_of_ok (runOn_currentHart m)]
  refine withLock_of_granted (Spinlock.acquire_of_free ?_ m.hart)
  rw [happart.get_asked]
  exact free

/-- A hart that finds a lock taken is turned away if it holds it itself, and waits otherwise. -/
theorem System.runOn_withLock_of_taken (body : Exec σ α) (a : α) {m : Machine σ}
    (taken : (lock.get m).flag = true) :
    Exec.runOn (do withLock lock (← currentHart) body (return a)) m =
      (if (lock.get m).isHeldBy m.hart then .ok a else .error .waits, m.asked) := by
  have htry : (lock.get m).tryAcquire m.hart = none := by rw [Spinlock.tryAcquire, if_pos taken]
  rw [Exec.runOn_bind_of_ok (runOn_currentHart m), withLock,
    Exec.runOn_bind_of_ok (Part.runOn_read lock m.asked), happart.get_asked, Spinlock.acquire, htry]
  cases (lock.get m).isHeldBy m.hart <;> rfl

end

end Supervisor
