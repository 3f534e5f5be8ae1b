/-
How a trap begins and how it ends.

Before anybody is asked about a trap, the hart claims a frame slot for it, keeps the frame there,
notes the beginning and announces it.  When everybody was asked, the end is noted and the slot given
back.  That is all: neither the one nor the other runs a handler.

* `Machine.begun`, `Announced` — what the beginning of a trap makes of the machine;
* `openTrap_of_announced` — below the limit the beginning comes to that, whatever the handlers are;
* `openTrap_at_limit` — at the limit it gives up;
* `Machine.ended`, `runOn_closeTrap` — what the end of a trap comes to.
-/
import Supervisor.Proofs.Nesting.Depth
import Supervisor.Proofs.Notice

namespace Supervisor

open Nesting (bankOf)

variable {σ A : Type}

/-! ### The beginning -/

/-- The slots with a trap of the hart `core` begun in them. -/
def Nesting.entered (n : Nesting) (core : UInt32) (f : Frame) : Nesting :=
  (n.withDepth (bankOf core) (n.depth (bankOf core) + 1)).storeFrame
    ⟨bankOf core, n.depth (bankOf core)⟩ f

namespace Machine

/-- The machine once the running hart has claimed a slot for a trap and has put the frame there. -/
def entered (f : Frame) (m : Machine σ) : Machine σ :=
  { m.asked with level := m.level + 1, system.nesting := m.system.nesting.entered m.hart f }

/-- The machine once the beginning of a trap was noted, too. -/
def begun (f : Frame) (m : Machine σ) : Machine σ :=
  (m.entered f).noted theTrace .trapEnter f.trapType.name f.scause

/-- The beginning of a trap is not seen where neither the numbers of the harts, the clock, the slots
nor the trace are looked at. -/
theorem view_begun {view : Machine σ → A}
    (hhart : ∀ m, view (thePlatform.set m.platform.hartId.2 m) = view m)
    (hclock : ∀ m, view (thePlatform.set m.platform.time.2 m) = view m)
    (hnest : ∀ level nesting m, view { m with level, system.nesting := nesting } = view m)
    (htrace : ∀ t m, view (theTrace.set t m) = view m) (f : Frame) (m : Machine σ) :
    view (m.begun f) = view m := by
  have hasked : view m.asked = view m :=
    (System.currentHart_keeps hhart).of_runOn (System.runOn_currentHart m)
  rw [begun, view_noted hclock htrace, entered, hnest, hasked]

theorem sink_begun (f : Frame) (m : Machine σ) : (m.begun f).sink = m.sink := by
  refine view_begun (fun m => ?_) (fun _ => rfl) (fun _ _ _ => rfl) (fun _ _ => rfl) f m
  exact sink_congr rfl m.platform.hartId_snd.1

end Machine

/-- Between the two machines a trap is announced on the console, if the system is set up so. -/
def Announced [Client σ] (f : Frame) (m m' : Machine σ) : Prop :=
  if m.system.config.logTraps then
    Printed m.sink ["[TRAP] ", f.trapType.name, " sepc=", Numeral.pointer f.sepc, " stval=",
      Numeral.pointer f.stval, " nest=", Numeral.decimal m.level, "\n"] m m'
  else m' = m

theorem exists_announced [Client σ] (console : ConsoleReturns σ) (f : Frame) (m : Machine σ) :
    ∃ m', Announced f m m' := by
  rw [funext fun m' => Announced.eq_1 f m m']
  split
  · exact exists_printed console _ _ m
  · exact ⟨m, rfl⟩

theorem Announced.keeps [Client σ] {view : Machine σ → A} {f : Frame} {m m' : Machine σ}
    (h : Announced f m m')
    (hwrite : ∀ t m, view (Machine.thePlatform.set (m.platform.write t) m) = view m)
    (hwritten : ∀ text, Exec.Keeps (Client.written (σ := σ) text) view) : view m' = view m := by
  rw [Announced] at h
  split at h
  · exact h.keeps hwrite hwritten
  · rw [h]

theorem runOn_announceTrap [Client σ] {f : Frame} {m m' : Machine σ} (h : Announced f m m') :
    Exec.runOn (announceTrap f.trapType f m.sink) m = (.ok (), m') := by
  rw [announceTrap, Exec.runOn_bind_of_ok (Exec.runOn_get m)]
  rw [Announced] at h
  cases hlog : m.system.config.logTraps with
  | false =>
    rw [hlog, if_neg Bool.false_ne_true] at h
    rw [if_neg Bool.false_ne_true, h]
    rfl
  | true =>
    rw [hlog, if_pos rfl] at h
    rw [if_pos rfl]
    exact printed_iff.1 h

theorem runOn_enterTrap {m : Machine σ} (room : m.level < m.system.nesting.limit) (f : Frame) :
    Exec.runOn (enterTrap m.hart f) m.asked = (.ok (), m.entered f) := by
  have hlevel : m.asked.level = m.level := by
    obtain ⟨hart, next, hasked⟩ := m.asked_eq
    rw [hasked]
  have hnesting : m.asked.system.nesting = m.system.nesting := by rw [m.system_asked]
  rw [enterTrap, Exec.runOn_bind_of_ok (Exec.runOn_get _), hlevel, hnesting,
    Nesting.enter_of_lt room]
  rfl

/-- Of the client, only the observer of the console counts for the beginning of a trap. -/
theorem openTrap_congr {client other : Client σ} (same : other.written = client.written)
    (f : Frame) : @openTrap σ other f = @openTrap σ client f := by
  simp only [openTrap, announceTrap, putLine_congr same]

/-- **What the beginning of a trap does.**  Below the limit it claims a slot for the running hart,
keeps the frame there, notes the beginning and announces it, and that is all.  It runs no handler:
with other handlers, and the same observer of the console, it does the same. -/
theorem openTrap_of_announced [client : Client σ] {f : Frame} {m m₁ : Machine σ}
    (room : m.level < m.system.nesting.limit) (announced : Announced f (m.begun f) m₁) :
    ∀ other : Client σ, other.written = client.written →
      Exec.runOn (@openTrap σ other f) m = (.ok (m.hart, m.sink), m₁) := by
  have hannounce : Exec.runOn (do
      let sink ← System.console
      announceTrap f.trapType f sink
      return (m.hart, sink)) (m.begun f) = (.ok (m.hart, m.sink), m₁) := by
    rw [Exec.runOn_bind_of_ok (System.runOn_console _),
      Exec.runOn_bind_of_ok (runOn_announceTrap announced), m.sink_begun]
    rfl
  have hown : Exec.runOn (openTrap f) m = (.ok (m.hart, m.sink), m₁) := by
    rw [openTrap, Exec.runOn_bind_of_ok (System.runOn_currentHart m),
      Exec.runOn_bind_of_ok (runOn_enterTrap room f),
      Exec.runOn_bind_of_ok (System.runOn_note _ _ _ _)]
    exact hannounce
  intro other same
  rw [openTrap_congr same, hown]

/-- At the limit the beginning of a trap gives up, once the number of the hart was asked for. -/
theorem openTrap_at_limit [Client σ] (f : Frame) {m : Machine σ}
    (full : m.system.nesting.limit ≤ m.level) :
    Exec.runOn (openTrap f) m = (.error (.panic (some "trap nesting overflow")),
      Machine.thePlatform.set (m.asked.platform.gaveUp "trap nesting overflow") m.asked) := by
  have hnone : m.asked.system.nesting.enter m.asked.level m.hart = none := by
    obtain ⟨hart, next, hasked⟩ := m.asked_eq
    rw [hasked]
    exact Nesting.enter_eq_none_iff.2 full
  have henter : Exec.runOn (enterTrap m.hart f) m.asked =
      (.error (.panic (some "trap nesting overflow")),
        Machine.thePlatform.set (m.asked.platform.gaveUp "trap nesting overflow") m.asked) := by
    rw [enterTrap, Exec.runOn_bind_of_ok (Exec.runOn_get _), hnone]
    exact runOn_panic _ _
  rw [openTrap, Exec.runOn_bind_of_ok (System.runOn_currentHart m),
    Exec.runOn_bind_of_error henter]

/-! ### The end -/

/-- How a trap ends, and the machine after it: the end is noted, along with whether a handler
claimed the trap, and the slot is given back.  Without a slot to give back the run gives up. -/
def Machine.ended (core : UInt32) (t : TrapType) (handled : Bool) (m : Machine σ) :
    Except Stop Unit × Machine σ :=
  let noted := m.noted theTrace .trapExit t.name (if handled then 1 else 0)
  match m.system.nesting.leave m.level core with
  | some (level, nesting) => (.ok (), { noted with level, system.nesting := nesting })
  | none => (.error (.panic (some "trap nesting underflow")),
      thePlatform.set (noted.platform.gaveUp "trap nesting underflow") noted)

/-- **What the end of a trap does.**  It has no handlers at hand that it could run. -/
theorem runOn_closeTrap (core : UInt32) (t : TrapType) (handled : Bool) (m : Machine σ) :
    Exec.runOn (closeTrap core t handled) m = m.ended core t handled := by
  set noted := m.noted Machine.theTrace .trapExit t.name (if handled then 1 else 0) with hnoted
  have hlevel : noted.level = m.level :=
    Machine.view_noted (fun _ => rfl) (fun _ _ => rfl) _ _ _ m
  have hnesting : Machine.theNesting.get noted = Machine.theNesting.get m :=
    Machine.view_noted (fun _ => rfl) (fun _ _ => rfl) _ _ _ m
  rw [closeTrap, Exec.runOn_bind_of_ok (System.runOn_note _ _ _ m), ← hnoted, leaveTrap,
    Exec.runOn_bind_of_ok (Exec.runOn_get noted), hlevel,
    show noted.system.nesting = m.system.nesting from hnesting, Machine.ended]
  cases m.system.nesting.leave m.level core with
  | none => rfl
  | some left => rfl

end Supervisor
