/-
What traps are made of.

A trap looks at its frame and changes it, does work that makes no change of the registry, and calls
handlers of the client.  `TrapWork x` says this of an action `x` of a trap.  What all of these steps
lead along, a whole trap leads along.

* `TrapWork.leads` — what the steps have in common;
* `TrapExec.onFrame` — a trap as an action on the machine;
* `TrapHandler.run_work`, `fallback_work` — the handlers of the kernel, and the last resort;
* `takeTrap_work` — a trap from its entry to its end.
-/
import Supervisor.Proofs.Work

namespace Supervisor

open Registry (Change)

variable {σ α : Type} [Client σ]

/-- Actions of a trap that are put together from looks at the frame and at the machine, changes of
the frame, work without a change of the registry, and calls of handlers of the client. -/
inductive TrapWork : {α : Type} → TrapExec σ α → Prop
  | still {α : Type} {x : TrapExec σ α} (keeps : ∀ f m, (TrapExec.runOn x f m).2 = m) : TrapWork x
  | machine {α : Type} {x : Exec σ α} (h : Work (fun _ => False) x) : TrapWork (onMachine x)
  | handler (number : Nat) : TrapWork (Client.trapHandler number)
  | bind {α β : Type} {x : TrapExec σ α} {k : α → TrapExec σ β} (first : TrapWork x)
      (next : ∀ a, TrapWork (k a)) : TrapWork (x >>= k)

namespace TrapWork

/-- What a trap does leads along whatever its steps lead along. -/
theorem leads {R : Machine σ → Machine σ → Prop} [IsPreorder (Machine σ) R]
    (outline : ∀ m m', m'.outline = m.outline → R m m')
    (written : ∀ text, Exec.Leads (Client.written (σ := σ) text) R)
    (handlers : ∀ n e, Exec.Leads (Client.errorHandler (σ := σ) n e) R)
    (traps : ∀ n, TrapExec.Leads (Client.trapHandler (σ := σ) n) R)
    {x : TrapExec σ α} (h : TrapWork x) : TrapExec.Leads x R := by
  induction h with
  | still keeps =>
    intro f m
    rw [keeps]
    exact refl_of R m
  | machine h => exact .onMachine (h.leads outline (fun _ hno => hno.elim) written handlers)
  | handler number => exact traps number
  | bind _ _ ihx ihk => exact .bind ihx ihk

theorem pure (a : α) : TrapWork (Pure.pure a : TrapExec σ α) := .still fun _ _ => rfl

theorem ite {c : Prop} [Decidable c] {x y : TrapExec σ α} (hx : TrapWork x) (hy : TrapWork y) :
    TrapWork (if c then x else y) := by
  split
  · exact hx
  · exact hy

end TrapWork

/-- An action of a trap on a given frame, as an action on the machine; gives the frame after it. -/
def TrapExec.onFrame (x : TrapExec σ α) (f : Frame) : Exec σ (α × Frame) :=
  ExceptT.mk do
    let (r, f') ← StateT.run x.run f
    return r.map (·, f')

/-! ### Handlers of the kernel -/

theorem theFrame_work : TrapWork (theFrame (σ := σ)) := .still fun _ _ => rfl

theorem skipInstruction_work : TrapWork (skipInstruction (σ := σ)) := .still fun _ _ => rfl

theorem say_work (sink : Sink) (pieces : List Text) : TrapWork (say (σ := σ) sink pieces) :=
  .machine (putLine_work sink pieces)

section

variable {may : Change → Prop}

theorem panic_work (text : Text) : Work may (panic text : Exec σ α) :=
  .bind (.update .platform _) fun _ => .throw _

theorem System.hasFirmware_work : Work may (hasFirmware (σ := σ)) :=
  .look (fun _ _ _ => rfl) fun _ => .pure _

theorem clearSoftware_work : Work may (clearSoftware (σ := σ)) :=
  .inner (fun _ _ _ => rfl) fun _ => rfl

theorem disarmTimer_work : Work may (disarmTimer (σ := σ)) := .update .platform _

theorem tick_work : Work may (tick (σ := σ)) :=
  .bind (.inner (fun _ _ _ => rfl) fun _ => rfl) fun _ =>
    .bind (.change .platform _) fun _ => .update .platform _

theorem Frame.print_work (f : Frame) (sink : Sink) : Work may (f.print (σ := σ) sink) :=
  .forM fun pieces _ => putLine_work sink pieces

theorem haltOnFault_work (f : Frame) : Work may (haltOnFault f : Exec σ α) :=
  .bind System.console_work fun sink => .bind (putLine_work sink _) fun _ =>
    .bind (f.print_work sink) fun _ => .bind (putLine_work sink _) fun _ =>
      .bind System.hasFirmware_work fun _ =>
        .ite (.bind (.bind (.update .platform _) fun _ => .throw _) fun _ => panic_work _)
          (panic_work _)

end

theorem BasicHandler.run_work (h : BasicHandler) : TrapWork (h.run (σ := σ)) := by
  have hline (sink : Sink) (pieces : List Text) (v : Verdict) : TrapWork (do
      say (σ := σ) sink pieces
      return v) := .bind (say_work sink pieces) fun _ => .pure v
  have hskip (sink : Sink) (pieces : List Text) : TrapWork (do
      say (σ := σ) sink pieces
      skipInstruction
      return Verdict.handled) :=
    .bind (say_work sink pieces) fun _ => .bind skipInstruction_work fun _ => .pure _
  refine .bind theFrame_work fun f => .bind (.machine System.console_work) fun sink => ?_
  cases h with
  | timer =>
    have htick : TrapWork (do
        if (← getThe (Machine σ)).system.config.logTraps then say sink ["[TRAP] timer tick\n"]
        return Verdict.handled) :=
      .bind (.still fun _ _ => rfl) fun _ => .ite (hline sink _ _) (.pure _)
    refine .bind (.machine System.hasFirmware_work) fun _ => .ite ?_ htick
    exact .bind (.machine disarmTimer_work) fun _ => htick
  | software => exact .bind (.machine clearSoftware_work) fun _ => .pure _
  | external | illegalInstruction | fault | unknown => exact hline sink _ _
  | systemCall | breakpoint => exact hskip sink _

theorem DiagnosticHandler.run_work (h : DiagnosticHandler) : TrapWork (h.run (σ := σ)) := by
  refine .bind theFrame_work fun f => .bind (.machine System.console_work) fun sink => ?_
  cases h with
  | fatalFault => exact .machine (haltOnFault_work f)
  | illegalInstruction =>
    exact .bind (say_work sink _) fun _ => .machine (haltOnFault_work f)
  | breakpoint =>
    exact .bind (say_work sink _) fun _ => .bind (.machine (f.print_work sink)) fun _ =>
      .bind skipInstruction_work fun _ => .bind theFrame_work fun _ =>
        .bind (say_work sink _) fun _ => .pure _

theorem TrapHandler.run_work (h : TrapHandler) : TrapWork (h.run (σ := σ)) := by
  cases h with
  | basic h => exact h.run_work
  | diagnostic h => exact h.run_work
  | periodicTick => exact .bind (.machine tick_work) fun _ => .pure _
  | client n => exact .handler n

/-! ### A trap -/

theorem dispatch_work (t : TrapType) (sink : Sink) (entries : List Entry) :
    TrapWork (dispatch (σ := σ) t sink entries) := by
  induction entries with
  | nil => exact .pure _
  | cons e entries ih =>
    refine .bind e.handler.run_work fun v => ?_
    cases v with
    | handled => exact .pure _
    | pass => exact ih
    | failed error => exact .bind (.machine (putLine_work sink _)) fun _ => ih

/-- The last resort for a trap type. -/
theorem fallback_work (t : TrapType) : TrapWork (fallback (σ := σ) t) := by
  refine .bind theFrame_work fun f => .bind (.machine System.console_work) fun sink => ?_
  cases t with
  | systemCall | breakpoint => exact .bind (say_work sink _) fun _ => skipInstruction_work
  | softwareInterrupt => exact .machine clearSoftware_work
  | timerInterrupt =>
    exact .bind (.machine System.hasFirmware_work) fun _ =>
      .ite (.bind (.machine disarmTimer_work) fun _ => say_work sink _) (say_work sink _)
  | _ => exact say_work sink _

section

variable {may : Change → Prop}

/-- The claim of a frame slot is no matter of the registry. -/
theorem enterTrap_work (core : UInt32) (f : Frame) : Work may (enterTrap (σ := σ) core f) := by
  refine .inner (fun g c m => ?_) fun m => ?_
  all_goals
    simp only [enterTrap, Exec.runOn_bind, Exec.runOn_get, Machine.advance]
    cases m.system.nesting.enter m.level core <;> rfl

theorem leaveTrap_work (core : UInt32) : Work may (leaveTrap (σ := σ) core) := by
  refine .inner (fun g c m => ?_) fun m => ?_
  all_goals
    simp only [leaveTrap, Exec.runOn_bind, Exec.runOn_get, Machine.advance]
    cases m.system.nesting.leave m.level core <;> rfl

theorem openTrap_work (f : Frame) : Work may (openTrap (σ := σ) f) :=
  .bind System.currentHart_work fun core => .bind (enterTrap_work core f) fun _ =>
    .bind (System.note_work _ _ _) fun _ => .bind System.console_work fun sink =>
      .bind (.look (fun _ _ _ => rfl) fun _ => .ite (putLine_work sink _) (.pure _)) fun _ =>
        .pure _

theorem entriesFor_work (t : TrapType) (sink : Sink) :
    Work may (entriesFor (σ := σ) t sink) := by
  refine .bind (System.locked_work (.bind (.read fun _ _ _ => rfl) fun _ => .pure _) (.pure _))
    fun found => ?_
  cases found with
  | none => exact .bind (putLine_work sink _) fun _ => .pure _
  | some entries => exact .pure entries

theorem closeTrap_work (core : UInt32) (t : TrapType) (handled : Bool) :
    Work may (closeTrap (σ := σ) core t handled) :=
  .bind (System.note_work _ _ _) fun _ => leaveTrap_work core

end

theorem serveTrap_work (core : UInt32) (t : TrapType) (sink : Sink) :
    TrapWork (serveTrap (σ := σ) core t sink) := by
  refine .bind (.machine (entriesFor_work t sink)) fun entries =>
    .bind (dispatch_work t sink entries) fun v => ?_
  have hclose : TrapWork (onMachine (closeTrap (σ := σ) core t v.isHandled)) :=
    .machine (closeTrap_work core t _)
  exact .ite hclose (.bind (fallback_work t) fun _ => hclose)

/-- What a trap is made of. -/
theorem takeTrap_work : TrapWork (takeTrap (σ := σ)) := by
  refine .bind (.still fun _ _ => rfl) fun m => .ite ?_ (.bind (.machine (panic_work _)) fun _ => ?_)
  all_goals
    exact .bind theFrame_work fun f => .bind (.machine (openTrap_work f)) fun opened =>
      serveTrap_work opened.1 f.trapType opened.2

end Supervisor
