/-
Traps that nobody takes.

What the machine does about a trap by itself is written down twice: in the basic handlers, which
stand last in the registry, and in the last resort, which follows if no handler claimed the trap or
none could be asked.  The two come to the same.

* `Hardware`, `Bearing` — what counts of a machine: not what it writes or records;
* `Hardware.settle`, `fallbackFrame` — what the machine does about a trap of each type;
* `TrapExec.Does` — an action of a trap whose result and effects are these;
* `BasicHandler.does_of_takes`, `BasicHandler.does_of_takes_none`, `fallback_does` — both texts;
* `Entry.Settles` — a handler that settles a trap in the same way, or leaves it alone;
* `takeTrap_of_untaken` — what becomes of a trap that nobody takes;
* `untaken_traps_agree` — it does not matter which of them gets at a trap.
-/
import Supervisor.Proofs.Nesting.Depth
import Supervisor.Proofs.Trap.Balance
import Supervisor.Proofs.Trap.Reentry
import Supervisor.System.Start

namespace Supervisor

open Nesting (bankOf)

variable {σ α β A : Type}

/-! ### What counts of a machine -/

/-- What the system can reach of its hart, and how that stands. -/
structure Hardware where
  bound : Bool
  interrupts : InterruptControl
  interfaces : Interfaces
  csrs : Csrs
  deadline : UInt64
deriving DecidableEq

/-- How a machine stands, but for what it writes, records, and keeps for its clients. -/
structure Bearing where
  registry : Registry
  /-- Whether the lock of the registry is taken. -/
  taken : Bool
  /-- Whether it is taken by the running hart. -/
  held : Bool
  level : Nat
  nesting : Nesting
  hardware : Hardware

namespace Machine

def hardware (m : Machine σ) : Hardware where
  bound := m.system.bound
  interrupts := m.system.interrupts
  interfaces := m.platform.interfaces
  csrs := m.platform.csrs
  deadline := m.platform.deadline

def bearing (m : Machine σ) : Bearing where
  registry := m.system.registry
  taken := m.system.lock.flag
  held := m.system.lock.isHeldBy m.hart
  level := m.level
  nesting := m.system.nesting
  hardware := m.hardware

variable {m : Machine σ}

/-- On the platform only the hart counts, and the number that it goes by. -/
theorem bearing_set_platform {p : Platform} (hhart : p.hartId.1 = m.platform.hartId.1)
    (hinterfaces : p.interfaces = m.platform.interfaces) (hcsrs : p.csrs = m.platform.csrs)
    (hdeadline : p.deadline = m.platform.deadline) :
    (thePlatform.set p m).bearing = m.bearing := by
  have hnumber : (thePlatform.set p m).hart = m.hart := hart_congr rfl hhart
  have hhardware : (thePlatform.set p m).hardware = m.hardware := by
    show Hardware.mk _ _ p.interfaces p.csrs p.deadline = _
    rw [hinterfaces, hcsrs, hdeadline]
    rfl
  show Bearing.mk _ _ (m.system.lock.isHeldBy _) _ _ _ = _
  rw [hnumber, hhardware]
  rfl

theorem bearing_write (t : Text) (m : Machine σ) :
    (thePlatform.set (m.platform.write t) m).bearing = m.bearing :=
  bearing_set_platform (Platform.hartId_fst_congr rfl rfl rfl) rfl rfl rfl

theorem bearing_clock (m : Machine σ) :
    (thePlatform.set m.platform.time.2 m).bearing = m.bearing :=
  bearing_set_platform (Platform.hartId_fst_congr rfl rfl rfl) rfl rfl rfl

theorem bearing_asked (m : Machine σ) : m.asked.bearing = m.bearing := by
  have hhardware : m.asked.hardware = m.hardware := by
    obtain ⟨hart, next, h⟩ := m.asked_eq
    rw [h]
    rfl
  have hlevel : m.asked.level = m.level := by
    obtain ⟨hart, next, h⟩ := m.asked_eq
    rw [h]
  rw [bearing, hhardware, hlevel, system_asked, hart_asked]
  rfl

end Machine

/-- What the machine makes of its hardware for a trap that nobody takes. -/
def Hardware.settle (t : TrapType) (h : Hardware) : Hardware :=
  match t with
  | .softwareInterrupt => { h with csrs := h.interrupts.clearSoftware h.csrs }
  | .timerInterrupt =>
    if h.bound && h.interfaces.firmware then
      { h with csrs := h.csrs.clearBits .sip Platform.timerPending, deadline := maxWord }
    else h
  | _ => h

/-- The machine stands as before, but for its hardware. -/
def Bearing.withHardware (b : Bearing) (k : Hardware → Hardware) : Bearing :=
  { b with hardware := k b.hardware }

/-! ### What an action does -/

/-- The action returns, and neither the frame nor the bearing of the machine changes. -/
def TrapExec.Looks (x : TrapExec σ α) : Prop :=
  ∀ f m, ∃ a m', TrapExec.runOn x f m = ((.ok a, f), m') ∧ m'.bearing = m.bearing

/-- The action returns `a`, and it changes the frame by `g`, the hardware by `k` and nothing else
that counts. -/
def TrapExec.Does (x : TrapExec σ α) (a : α) (g : Frame → Frame) (k : Hardware → Hardware) : Prop :=
  ∀ f m, ∃ m', TrapExec.runOn x f m = ((.ok a, g f), m') ∧
    m'.bearing = m.bearing.withHardware k

theorem TrapExec.Looks.onMachine {x : Exec σ α} (hreturns : Exec.Returns x)
    (hkeeps : Exec.Keeps x Machine.bearing) : Looks (onMachine x) := by
  intro f m
  obtain ⟨a, m', hrun⟩ := hreturns m
  exact ⟨a, m', by rw [TrapExec.runOn_onMachine, hrun], hkeeps.of_runOn hrun⟩

theorem TrapExec.Does.bind {x : TrapExec σ α} {y : α → TrapExec σ β} {b : β} {g : Frame → Frame}
    {k : Hardware → Hardware} (hx : Looks x) (hy : ∀ a, Does (y a) b g k) :
    Does (x >>= y) b g k := by
  intro f m
  obtain ⟨a, m₁, hrun, hbearing⟩ := hx f m
  obtain ⟨m', hthen, hafter⟩ := hy a f m₁
  exact ⟨m', by rw [TrapExec.runOn_bind_of_ok hrun, hthen], by rw [hafter, hbearing]⟩

theorem TrapExec.Does.pure (a : α) : Does (Pure.pure a : TrapExec σ α) a id id :=
  fun _ m => ⟨m, rfl, rfl⟩

/-- What only looks comes after what does something. -/
theorem TrapExec.Does.andThen {x : TrapExec σ α} {y : α → TrapExec σ β} {a : α} {b : β}
    {g : Frame → Frame} {k : Hardware → Hardware} (hx : Does x a g k) (hy : Does (y a) b id id) :
    Does (x >>= y) b g k := by
  intro f m
  obtain ⟨m₁, hrun, hbearing⟩ := hx f m
  obtain ⟨m', hthen, hafter⟩ := hy (g f) m₁
  exact ⟨m', by rw [TrapExec.runOn_bind_of_ok hrun, hthen]; rfl, hafter.trans hbearing⟩

theorem TrapExec.Looks.does {x : TrapExec σ Unit} (h : Looks x) : Does x () id id := by
  intro f m
  obtain ⟨_, m', hrun, hbearing⟩ := h f m
  exact ⟨m', hrun, hbearing⟩

theorem skip_does : TrapExec.Does (σ := σ) skipInstruction () Frame.advance id :=
  fun _ m => ⟨m, rfl, rfl⟩

theorem clearSoftware_does : TrapExec.Does (σ := σ) (onMachine clearSoftware) () id
    (Hardware.settle .softwareInterrupt) := by
  intro f m
  have hhart : (Exec.runOn clearSoftware m).2.hart = m.hart :=
    Machine.hart_congr rfl (Platform.hartId_fst_congr rfl rfl rfl)
  refine ⟨(Exec.runOn clearSoftware m).2, rfl, ?_⟩
  show Bearing.mk _ _ (m.system.lock.isHeldBy _) _ _ _ = _
  rw [hhart]
  rfl

/-- To stop the timer takes the firmware. -/
theorem disarm_does {rest : TrapExec σ α} {a : α} (h : rest.Does a id id) :
    TrapExec.Does (do
      if ← onMachine System.hasFirmware then onMachine disarmTimer
      rest) a id (Hardware.settle .timerInterrupt) := by
  intro f m
  have hask : TrapExec.runOn (onMachine System.hasFirmware) f m =
      ((.ok (m.system.bound && m.platform.interfaces.firmware), f), m) := rfl
  rw [TrapExec.runOn_bind_of_ok hask]
  cases hfirmware : m.system.bound && m.platform.interfaces.firmware with
  | false =>
    obtain ⟨m', hrun, hafter⟩ := h f m
    refine ⟨m', hrun, ?_⟩
    rw [hafter]
    have hsettle : m.hardware.settle .timerInterrupt = m.hardware :=
      if_neg (ne_true_of_eq_false hfirmware)
    show Bearing.mk _ _ _ _ _ m.hardware = Bearing.mk _ _ _ _ _ (m.hardware.settle .timerInterrupt)
    rw [hsettle]
  | true =>
    obtain ⟨m', hrun, hafter⟩ := h f (Exec.runOn disarmTimer m).2
    refine ⟨m', hrun, ?_⟩
    have hhart : (Exec.runOn disarmTimer m).2.hart = m.hart :=
      Machine.hart_congr rfl (Platform.hartId_fst_congr rfl rfl rfl)
    have hsettle : m.hardware.settle .timerInterrupt = (Exec.runOn disarmTimer m).2.hardware :=
      if_pos hfirmware
    rw [hafter]
    show Bearing.mk _ _ (m.system.lock.isHeldBy _) _ _ _ =
      Bearing.mk _ _ _ _ _ (m.hardware.settle .timerInterrupt)
    rw [hhart, hsettle]
    rfl

/-! ### The beginning and the end of a trap -/

/-- The slots with that trap ended. -/
def Nesting.left (n : Nesting) (core : UInt32) (f : Frame) : Nesting :=
  (n.entered core f).withDepth (bankOf core) (n.depth (bankOf core))

theorem Nesting.depth_left (n : Nesting) (core : UInt32) (f : Frame) :
    (n.left core f).depth = n.depth := by
  rw [left, depth_withDepth, entered, depth_storeFrame, depth_withDepth, Function.update_idem,
    Function.update_eq_self]

theorem System.note_keeps_bearing (kind : EventKind) (name : Text) (value : UInt64) :
    Exec.Keeps (System.note (σ := σ) kind name value) Machine.bearing :=
  System.note_keeps Machine.bearing_clock (fun _ _ => rfl) kind name value

theorem ended_bearing {m : Machine σ} {level : Nat} {n : Nesting} {core : UInt32} {f : Frame}
    (hlevel : m.bearing.level = level + 1) (hnesting : m.bearing.nesting = n.entered core f)
    (t : TrapType) (handled : Bool) :
    (m.ended core t handled).1 = .ok () ∧
      (m.ended core t handled).2.bearing = { m.bearing with level, nesting := n.left core f } := by
  have hdepth : (n.entered core f).depth (bankOf core) = n.depth (bankOf core) + 1 := by
    rw [Nesting.entered, Nesting.depth_storeFrame, Nesting.depth_withDepth_self]
  have hleave : m.system.nesting.leave m.level core = some (level, n.left core f) := by
    rw [show m.level = level + 1 from hlevel, show m.system.nesting = _ from hnesting,
      Nesting.leave_of_pos (by rw [hdepth]; exact Nat.succ_ne_zero _) (Nat.succ_ne_zero level),
      hdepth]
    rfl
  have hnoted := (System.note_keeps_bearing .trapExit t.name (if handled then 1 else 0)).of_runOn
    (System.runOn_note _ _ _ m)
  rw [Machine.ended, hleave]
  refine ⟨rfl, ?_⟩
  rw [← hnoted]
  rfl

/-! ### What the machine does by itself -/

/-- The trap type that a basic handler takes, if it takes any. -/
def BasicHandler.takes : BasicHandler → Option TrapType
  | .timer => some .timerInterrupt
  | .software => some .softwareInterrupt
  | .external => some .externalInterrupt
  | .systemCall => some .systemCall
  | .breakpoint => some .breakpoint
  | _ => none

section

variable [Client σ] (console : ConsoleReturns σ)
  (quiet : ∀ text, Exec.Keeps (Client.written (σ := σ) text) Machine.bearing)

include console quiet

omit console in
theorem putLine_keeps_bearing (sink : Sink) (pieces : List Text) :
    Exec.Keeps (putLine (σ := σ) sink pieces) Machine.bearing :=
  putLine_keeps Machine.bearing_write quiet sink pieces

theorem say_looks (sink : Sink) (pieces : List Text) :
    TrapExec.Looks (say (σ := σ) sink pieces) :=
  .onMachine (putLine_returns console sink pieces) (putLine_keeps_bearing quiet sink pieces)

theorem fallback_does (t : TrapType) :
    TrapExec.Does (fallback (σ := σ) t) () (fallbackFrame t) (Hardware.settle t) := by
  have hsay := say_looks console quiet
  refine .bind (fun f m => ⟨f, m, rfl, rfl⟩) fun f => ?_
  refine .bind (fun f m => ⟨_, m, rfl, rfl⟩) fun sink => ?_
  cases t with
  | systemCall => exact .bind (hsay _ _) fun _ => skip_does
  | breakpoint => exact .bind (hsay _ _) fun _ => skip_does
  | softwareInterrupt => exact clearSoftware_does
  | timerInterrupt => exact disarm_does (hsay _ _).does
  | _ => exact (hsay _ _).does

theorem BasicHandler.does_of_takes {h : BasicHandler} {t : TrapType} (ht : h.takes = some t) :
    TrapExec.Does (σ := σ) h.run .handled (fallbackFrame t) (Hardware.settle t) := by
  have hsay := say_looks console quiet
  have hend : TrapExec.Does (σ := σ) (pure .handled) Verdict.handled id id := .pure _
  refine .bind (fun f m => ⟨f, m, rfl, rfl⟩) fun f => ?_
  refine .bind (fun f m => ⟨_, m, rfl, rfl⟩) fun sink => ?_
  cases h with
  | timer =>
    obtain rfl := Option.some.inj ht
    refine disarm_does (.bind (fun f m => ⟨m, m, rfl, rfl⟩) fun m => ?_)
    split
    · exact .bind (hsay _ _) fun _ => hend
    · exact hend
  | software =>
    obtain rfl := Option.some.inj ht
    exact clearSoftware_does.andThen hend
  | external =>
    obtain rfl := Option.some.inj ht
    exact .bind (hsay _ _) fun _ => hend
  | systemCall =>
    obtain rfl := Option.some.inj ht
    exact .bind (hsay _ _) fun _ => skip_does.andThen hend
  | breakpoint =>
    obtain rfl := Option.some.inj ht
    exact .bind (hsay _ _) fun _ => skip_does.andThen hend
  | illegalInstruction => cases ht
  | fault => cases ht
  | unknown => cases ht

theorem BasicHandler.does_of_takes_none {h : BasicHandler} (ht : h.takes = none) :
    TrapExec.Does (σ := σ) h.run .pass id id := by
  have hline (sink : Sink) (pieces : List Text) : TrapExec.Does (σ := σ) (do
      say sink pieces
      return Verdict.pass) .pass id id :=
    .bind (say_looks console quiet sink pieces) fun _ => .pure _
  refine .bind (fun f m => ⟨f, m, rfl, rfl⟩) fun f => ?_
  refine .bind (fun f m => ⟨_, m, rfl, rfl⟩) fun sink => ?_
  cases h with
  | illegalInstruction => exact hline _ _
  | fault => exact hline _ _
  | unknown => exact hline _ _
  | _ => cases ht

end

/-! ### The handlers of a trap -/

section

variable [Client σ]

/-- The handler takes traps of a type as the machine does by itself, or leaves them alone. -/
def Entry.Settles (t : TrapType) (e : Entry) : Prop :=
  ∀ f (m : Machine σ), ∃ v f' m', TrapExec.runOn e.handler.run f m = ((.ok v, f'), m') ∧
    if v.isHandled then f' = fallbackFrame t f ∧ m'.bearing = m.bearing.withHardware (.settle t)
    else f' = f ∧ m'.bearing = m.bearing

/-- The basic handler that the machine has for a trap type. -/
def Entry.IsBasic (t : TrapType) (e : Entry) : Prop :=
  ∃ h description, (t, h, description) ∈ System.basicHandlers ∧ e.handler = .basic h

/-- A handler that passes the trap on or fails, and touches neither the frame nor what counts of the
machine. -/
def Entry.Idles (σ : Type) [Client σ] (e : Entry) : Prop :=
  ∀ f (m : Machine σ), ∃ v m', TrapExec.runOn e.handler.run f m = ((.ok v, f), m') ∧
    v.isHandled = false ∧ m'.bearing = m.bearing

theorem Entry.Idles.settles {e : Entry} (h : e.Idles σ) (t : TrapType) : e.Settles (σ := σ) t := by
  intro f m
  obtain ⟨v, m', hrun, hverdict, hbearing⟩ := h f m
  refine ⟨v, f, m', hrun, ?_⟩
  rw [hverdict]
  exact ⟨rfl, hbearing⟩

/-- A trap of this type finds nobody who takes it, but for the basic handler: the running hart holds
the lock of the registry, or else the lock is free and all other handlers leave the trap alone. -/
def Machine.LeavesUntaken (t : TrapType) (m : Machine σ) : Prop :=
  m.HoldsRegistry ∨
    m.system.lock.flag = false ∧ ∀ e ∈ m.system.registry.entries t, e.IsBasic t ∨ e.Idles σ

theorem Machine.LeavesUntaken.of_bearing {t : TrapType} {m m' : Machine σ}
    (h : m.LeavesUntaken t) (hregistry : m'.bearing.registry = m.bearing.registry)
    (htaken : m'.bearing.taken = m.bearing.taken) (hheld : m'.bearing.held = m.bearing.held) :
    m'.LeavesUntaken t := by
  rcases h with hholds | ⟨hfree, hentries⟩
  · exact .inl (hheld.trans hholds)
  · refine .inr ⟨htaken.trans hfree, ?_⟩
    rwa [show m'.system.registry = m.system.registry from hregistry]

end

section

variable [Client σ] (console : ConsoleReturns σ)
  (quiet : ∀ text, Exec.Keeps (Client.written (σ := σ) text) Machine.bearing)

include console quiet

theorem Entry.IsBasic.settles {t : TrapType} {e : Entry} (h : e.IsBasic t) :
    e.Settles (σ := σ) t := by
  obtain ⟨h, description, hmem, hhandler⟩ := h
  have htakes : ∀ b ∈ System.basicHandlers, b.2.1.takes = none ∨ b.2.1.takes = some b.1 := by decide
  intro f m
  rw [hhandler]
  rcases htakes _ hmem with hnone | hsome
  · obtain ⟨m', hrun, hbearing⟩ := BasicHandler.does_of_takes_none console quiet hnone f m
    exact ⟨.pass, f, m', hrun, rfl, hbearing⟩
  · obtain ⟨m', hrun, hbearing⟩ := BasicHandler.does_of_takes console quiet hsome f m
    exact ⟨.handled, _, m', hrun, rfl, hbearing⟩

/-- Handlers that settle a trap leave it to the last resort, or have done the same. -/
theorem dispatch_settles {t : TrapType} (sink : Sink) {entries : List Entry}
    (h : ∀ e ∈ entries, e.Settles (σ := σ) t) (f : Frame) (m : Machine σ) :
    ∃ v f' m', TrapExec.runOn (dispatch t sink entries) f m = ((.ok v, f'), m') ∧
      if v.isHandled then f' = fallbackFrame t f ∧ m'.bearing = m.bearing.withHardware (.settle t)
      else f' = f ∧ m'.bearing = m.bearing := by
  induction entries generalizing m with
  | nil => exact ⟨.failed .noHandler, f, m, rfl, rfl, rfl⟩
  | cons e entries ih =>
    obtain ⟨v, f₁, m₁, hrun, hsettled⟩ := h e List.mem_cons_self f m
    have hrest (m₂ : Machine σ) (hbearing : m₂.bearing = m.bearing) := by
      have hgo := ih (fun e he => h e (List.mem_cons_of_mem _ he)) m₂
      rwa [hbearing] at hgo
    rw [dispatch, TrapExec.runOn_bind_of_ok hrun]
    cases v with
    | handled => exact ⟨.handled, f₁, m₁, rfl, hsettled⟩
    | pass =>
      obtain ⟨rfl, hbearing⟩ : f₁ = f ∧ m₁.bearing = m.bearing := hsettled
      exact hrest m₁ hbearing
    | failed error =>
      obtain ⟨rfl, hbearing⟩ : f₁ = f ∧ m₁.bearing = m.bearing := hsettled
      -- the failure is reported before the next handler is called
      obtain ⟨_, m₂, hreport⟩ := putLine_returns console sink
        ["[TRAP] handler '", e.description, "' failed on ", t.name, ": ", error.name, "\n"] m₁
      have hsaid : TrapExec.runOn (onMachine (reportFailure e.description t sink error)) f₁ m₁ =
          ((.ok (), f₁), m₂) := by
        rw [TrapExec.runOn_onMachine, reportFailure, hreport]
      show ∃ v f' m', TrapExec.runOn (do
        onMachine (reportFailure e.description t sink error)
        dispatch t sink entries) f₁ m₁ = ((.ok v, f'), m') ∧ _
      rw [TrapExec.runOn_bind_of_ok hsaid]
      exact hrest m₂ (((putLine_keeps_bearing quiet _ _).of_runOn hreport).trans hbearing)

omit console in
theorem Announced.begun_bearing {m m₁ : Machine σ} {f : Frame} (h : Announced f (m.begun f) m₁) :
    m₁.bearing = { m.bearing with
      level := m.level + 1, nesting := m.system.nesting.entered m.hart f } := by
  have hentered : (m.entered f).bearing = { m.bearing with
      level := m.level + 1, nesting := m.system.nesting.entered m.hart f } := by
    rw [← m.bearing_asked]
    rfl
  have hnoted : (m.begun f).bearing = (m.entered f).bearing :=
    (System.note_keeps_bearing _ _ _).of_runOn (System.runOn_note _ _ _ _)
  rw [h.keeps Machine.bearing_write quiet, hnoted, hentered]

omit console quiet in
/-- To look at the registry under its lock leaves the machine standing as it was. -/
theorem entriesFor_bearing {m : Machine σ} (free : m.system.lock.flag = false) (t : TrapType)
    (sink : Sink) :
    ∃ m', Exec.runOn (entriesFor t sink) m = (.ok (m.system.registry.entries t), m') ∧
      m'.bearing = m.bearing := by
  refine ⟨_, runOn_entriesFor_of_free t sink free, ?_⟩
  have hheld : m.system.lock.isHeldBy m.hart = false := by
    rw [Spinlock.isHeldBy, free]
    rfl
  rw [← m.bearing_asked]
  show Bearing.mk m.asked.system.registry false false m.asked.level m.asked.system.nesting
      m.asked.hardware =
    Bearing.mk _ m.asked.system.lock.flag (m.asked.system.lock.isHeldBy m.asked.hart) _ _ _
  rw [m.hart_asked, m.system_asked, free, hheld]

/-- However a trap that nobody takes is served, it is settled. -/
theorem serveTrap_settles {t : TrapType} {m : Machine σ} (h : m.LeavesUntaken t) (core : UInt32)
    (sink : Sink) (f : Frame) :
    ∃ handled m', TrapExec.runOn (serveTrap core t sink) f m =
        TrapExec.runOn (onMachine (closeTrap core t handled)) (fallbackFrame t f) m' ∧
      m'.bearing = m.bearing.withHardware (.settle t) := by
  rcases h with hholds | ⟨hfree, hentries⟩
  · -- the lock is held, so the last resort is all there is
    obtain ⟨_, m₁, hline⟩ := putLine_returns console sink
      ["[TRAP] registry held by this hart, ", t.name, " goes to fallback\n"] m.asked
    obtain ⟨m', hfallback, hbearing⟩ := fallback_does console quiet t f m₁
    have hsaid : TrapExec.runOn (say sink
        ["[TRAP] registry held by this hart, ", t.name, " goes to fallback\n"]) f m.asked =
        ((.ok (), f), m₁) := by
      rw [say, TrapExec.runOn_onMachine, hline]
    refine ⟨false, m', ?_, ?_⟩
    · rw [runOn_serveTrap_of_holds hholds, unattended, TrapExec.runOn_bind_of_ok hsaid,
        TrapExec.runOn_bind_of_ok hfallback]
    · rw [hbearing, (putLine_keeps_bearing quiet _ _).of_runOn hline, m.bearing_asked]
  · obtain ⟨m₁, hfirst, hbearing₁⟩ := entriesFor_bearing hfree t sink
    have hsettles : ∀ e ∈ m.system.registry.entries t, e.Settles (σ := σ) t := fun e he =>
      (hentries e he).elim (·.settles console quiet) (·.settles t)
    -- either a handler has settled the trap, or it comes to the last resort untouched
    obtain ⟨v, f₂, m₂, hdispatch, hsettled⟩ := dispatch_settles console quiet sink hsettles f m₁
    have hfound : TrapExec.runOn (onMachine (entriesFor t sink)) f m =
        ((.ok (m.system.registry.entries t), f), m₁) := by
      rw [TrapExec.runOn_onMachine, hfirst]
    refine ⟨v.isHandled, ?_⟩
    rw [serveTrap, TrapExec.runOn_bind_of_ok hfound, TrapExec.runOn_bind_of_ok hdispatch]
    cases hverdict : v.isHandled with
    | true =>
      rw [hverdict, if_pos rfl, hbearing₁] at hsettled
      obtain ⟨rfl, hbearing₂⟩ := hsettled
      exact ⟨m₂, rfl, hbearing₂⟩
    | false =>
      rw [hverdict, if_neg Bool.false_ne_true, hbearing₁] at hsettled
      obtain ⟨rfl, hbearing₂⟩ := hsettled
      obtain ⟨m', hfallback, hbearing⟩ := fallback_does console quiet t f₂ m₂
      exact ⟨m', TrapExec.runOn_bind_of_ok hfallback, by rw [hbearing, hbearing₂]⟩

/-- Below the limit a trap that nobody takes returns, and it is settled. -/
theorem takeTrap_settles {m : Machine σ} (ready : m.system.ready = true) {f : Frame}
    (untaken : m.LeavesUntaken f.trapType) (h : m.level < m.system.nesting.limit) :
    ∃ m' n, TrapExec.runOn takeTrap f m = ((.ok (), fallbackFrame f.trapType f), m') ∧
      n.depth = m.system.nesting.depth ∧
      m'.bearing = { m.bearing with nesting := n, hardware := m.hardware.settle f.trapType } := by
  obtain ⟨m₁, announced⟩ := exists_announced console f (m.begun f)
  have hbegun := announced.begun_bearing quiet
  obtain ⟨handled, m₂, hserve, hsettled⟩ := serveTrap_settles console quiet
    (untaken.of_bearing (by rw [hbegun]) (by rw [hbegun]) (by rw [hbegun])) m.hart m.sink f
  rw [hbegun] at hsettled
  obtain ⟨hended, hend⟩ := ended_bearing (congrArg Bearing.level hsettled)
    (congrArg Bearing.nesting hsettled) f.trapType handled
  refine ⟨(m₂.ended m.hart f.trapType handled).2, _, ?_, m.system.nesting.depth_left m.hart f, ?_⟩
  · rw [takeTrap_of_announced ready h announced, hserve, TrapExec.runOn_onMachine,
      runOn_closeTrap, hended]
  · rw [hend, hsettled]
    rfl

/-- What becomes of a trap that nobody takes. -/
theorem takeTrap_of_untaken {m : Machine σ} (ready : m.system.ready = true) (f : Frame)
    (untaken : m.LeavesUntaken f.trapType) :
    let ended := TrapExec.runOn takeTrap f m
    (if m.level < m.system.nesting.limit then
      ended.1 = (.ok (), fallbackFrame f.trapType f) ∧
        ended.2.hardware = m.hardware.settle f.trapType
    else
      ended.1 = (.error (.panic (some "trap nesting overflow")), f) ∧
        ended.2.hardware = m.hardware) ∧
    ended.2.system.registry = m.system.registry ∧ ended.2.level = m.level ∧
    ended.2.system.nesting.depth = m.system.nesting.depth := by
  intro ended
  split
  · rename_i hlt
    obtain ⟨m', n, hrun, hdepth, hbearing⟩ := takeTrap_settles console quiet ready untaken hlt
    have hended : ended = _ := hrun
    rw [hended]
    exact ⟨⟨rfl, congrArg Bearing.hardware hbearing⟩, congrArg Bearing.registry hbearing,
      congrArg Bearing.level hbearing, (congrArg (·.nesting.depth) hbearing).trans hdepth⟩
  · rename_i hle
    have hended : ended = _ := takeTrap_at_limit ready f (Nat.not_lt.1 hle)
    have hbearing : ended.2.bearing = m.bearing := by
      rw [hended, Platform.gaveUp, Machine.bearing_write, m.bearing_asked]
    exact ⟨⟨by rw [hended], congrArg Bearing.hardware hbearing⟩,
      congrArg Bearing.registry hbearing, congrArg Bearing.level hbearing,
      congrArg (·.nesting.depth) hbearing⟩

/-- **It does not matter who settles a trap that nobody takes.**  Let the machine be ready, and let
it leave the traps of the type of a frame untaken: the hart holds the lock of the registry, or the
handlers for that type are the basic one, if it is installed, and others that leave the trap alone.

Below the nesting limit the trap returns.  The frame goes on behind the instruction for a system
call or a breakpoint, and is the same otherwise.  The timer is stopped and the software interrupt
taken back by traps of their types, as far as the hardware can be reached, and nothing else happens
to the hardware.  The registry, the number of traps in progress and the depths are as before.  At
the limit the trap gives up, and all of this is as before.

So the same becomes of a trap on any other machine that leaves it untaken, if that has the same
hardware, limit and number of traps in progress. -/
theorem untaken_traps_agree {m : Machine σ} (ready : m.system.ready = true) (f : Frame)
    (untaken : m.LeavesUntaken f.trapType) :
    let t := f.trapType
    let ended := TrapExec.runOn takeTrap f m
    (if m.level < m.system.nesting.limit then
      ended.1 = (.ok (), fallbackFrame t f) ∧ ended.2.hardware = m.hardware.settle t
    else
      ended.1 = (.error (.panic (some "trap nesting overflow")), f) ∧
        ended.2.hardware = m.hardware) ∧
    ended.2.system.registry = m.system.registry ∧ ended.2.level = m.level ∧
    ended.2.system.nesting.depth = m.system.nesting.depth ∧
    fallbackFrame t f =
      { f with sepc := if t = .systemCall ∨ t = .breakpoint then f.sepc + 4 else f.sepc } ∧
    ∀ m₂ : Machine σ, m₂.system.ready = true → m₂.LeavesUntaken t → m₂.hardware = m.hardware →
      m₂.level = m.level → m₂.system.nesting.limit = m.system.nesting.limit →
      let ended₂ := TrapExec.runOn takeTrap f m₂
      ended₂.1 = ended.1 ∧ ended₂.2.hardware = ended.2.hardware ∧
        ended₂.2.level = ended.2.level := by
  intro t ended
  -- both machines come to what is determined by the frame, the hardware, the level and the limit
  obtain ⟨houtcome, hregistry, hlevel, hdepth⟩ :=
    takeTrap_of_untaken console quiet ready f untaken
  refine ⟨houtcome, hregistry, hlevel, hdepth, ?_, ?_⟩
  · cases t <;> rfl
  · intro m₂ ready₂ untaken₂ hhardware hsame hlimit ended₂
    obtain ⟨houtcome₂, -, hlevel₂, -⟩ :=
      takeTrap_of_untaken console quiet ready₂ f untaken₂
    rw [hsame, hlimit, hhardware] at houtcome₂
    have hboth : ended₂.1 = ended.1 ∧ ended₂.2.hardware = ended.2.hardware := by
      split at houtcome
      · rename_i hlt
        rw [if_pos hlt] at houtcome₂
        exact ⟨houtcome₂.1.trans houtcome.1.symm, houtcome₂.2.trans houtcome.2.symm⟩
      · rename_i hle
        rw [if_neg hle] at houtcome₂
        exact ⟨houtcome₂.1.trans houtcome.1.symm, houtcome₂.2.trans houtcome.2.symm⟩
    exact ⟨hboth.1, hboth.2, by rw [hlevel₂, hlevel, hsame]⟩

end

/-- A client whose handlers pass every trap on. -/
inductive Onlooker where
  | here

namespace Onlooker

instance : Client Onlooker where
  trapHandler _ := return .pass
  errorHandler _ _ := return .unhandled
  command _ _ _ := return 0
  written _ := return

/-- The frame of a system call. -/
def frame : Frame where
  scause := 8
  sepc := 16

def entry : Entry := ⟨.client 0, "onlooker", {}⟩

def basicEntry : Entry := ⟨.basic .systemCall, "Default System Call Handler", {}⟩

/-- A registry with a handler of system calls. -/
def registry (e : Entry) : Registry :=
  (Registry.add {} .systemCall ⟨some e.handler, some e.description, e.terms⟩).2

/-- The handler of the client comes before the basic one. -/
def attended : Machine Onlooker where
  system.ready := true
  system.registry :=
    ((registry entry).add .systemCall ⟨some basicEntry.handler, some basicEntry.description, {}⟩).2
  clients := .here

/-- The basic handler is not installed. -/
def bare : Machine Onlooker where
  system.ready := true
  system.registry := registry entry
  clients := .here

/-- The hart holds the lock of the registry. -/
def busy : Machine Onlooker := Machine.theLock.set ⟨true, 0⟩ attended

theorem entry_idles : entry.Idles Onlooker := fun _ m => ⟨.pass, m, rfl, rfl, rfl⟩

end Onlooker

/-- A system call goes on behind its instruction, whether the basic handler takes it, is missing, or
cannot be reached. -/
theorem onlooker_sees_calls_skipped :
    let attended := TrapExec.runOn takeTrap Onlooker.frame Onlooker.attended
    let bare := TrapExec.runOn takeTrap Onlooker.frame Onlooker.bare
    let busy := TrapExec.runOn takeTrap Onlooker.frame Onlooker.busy
    attended.1 = (.ok (), { Onlooker.frame with sepc := 20 }) ∧
    (bare.1 = attended.1 ∧ bare.2.hardware = attended.2.hardware ∧
      bare.2.level = attended.2.level) ∧
    busy.1 = attended.1 ∧ busy.2.hardware = attended.2.hardware ∧
      busy.2.level = attended.2.level := by
  have console : ConsoleReturns Onlooker := fun _ m => ⟨(), m, rfl⟩
  have quiet : ∀ text, Exec.Keeps (Client.written (σ := Onlooker) text) Machine.bearing :=
    fun _ => .pure ()
  have hattended : Onlooker.attended.system.registry.entries .systemCall =
      [Onlooker.entry, Onlooker.basicEntry] := by decide
  have hbare : Onlooker.bare.system.registry.entries .systemCall = [Onlooker.entry] := by decide
  have hbasic : Onlooker.basicEntry.IsBasic .systemCall :=
    ⟨.systemCall, "Default System Call Handler", by decide, rfl⟩
  have hfirst : Onlooker.attended.LeavesUntaken .systemCall := by
    refine .inr ⟨rfl, fun e he => ?_⟩
    rw [hattended] at he
    rcases List.mem_pair.1 he with rfl | rfl
    · exact .inr Onlooker.entry_idles
    · exact .inl hbasic
  have hsecond : Onlooker.bare.LeavesUntaken .systemCall := by
    refine .inr ⟨rfl, fun e he => ?_⟩
    rw [hbare] at he
    rw [List.mem_singleton.1 he]
    exact .inr Onlooker.entry_idles
  have hthird : Onlooker.busy.LeavesUntaken .systemCall := .inl rfl
  obtain ⟨houtcome, -, -, -, -, hagree⟩ :=
    untaken_traps_agree console quiet (m := Onlooker.attended) rfl Onlooker.frame hfirst
  rw [if_pos (by decide)] at houtcome
  exact ⟨houtcome.1, hagree Onlooker.bare rfl hsecond rfl rfl rfl,
    hagree Onlooker.busy rfl hthird rfl rfl rfl⟩

end Supervisor
