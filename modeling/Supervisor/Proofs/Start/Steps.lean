/-
The start, step by step.

A request to start the system claims the start, goes through the set-up and makes the system ready,
or it is told that it comes too late and waits.  Here each of these steps is an action of its own,
so that others may come between them.

* `SetUpStep`, `SetUpStep.plan` — the steps of the set-up, and which of them a configuration asks
  for;
* `StartPhase`, `StartPhase.act` — how far a request has come, and its next step;
* `StartPhase.rest_eq` — the steps of a request, one after the other, are the request;
* `Setting`, `SetUpStep.apply` — what the set-up is about, and what each step makes of it;
* `SetUpStep.setting_perform` — nothing else is made of it, however the step ends.

Design notes: the setting leaves out the events of the trace and the holders of the locks, so what
the steps make of it does not depend on the time or on the hart.
-/
import Supervisor.Proofs.Fault.Site
import Supervisor.Proofs.Registry.History
import Supervisor.Proofs.Work

namespace Supervisor

open Registry (Change)

variable {σ α : Type}

/-! ### Steps of the set-up -/

/-- A step of the set-up. -/
inductive SetUpStep where
  | bindPlatform
  | attachInterrupts
  | attachImages
  | attachErrors
  | startTrace
  | enableTrace
  | limitNesting
  | writeVector
  | addBasic (d : TrapType × BasicHandler × String)
  | addError (p : ErrorProposal)
  | countHandlers
  | announce
deriving DecidableEq

/-- What the set-up keeps in mind for its last line. -/
structure SetUpNotes where
  limit : Nat := 0
  installed : Nat := 0
deriving DecidableEq

namespace SetUpStep

/-- The steps that tie the system to its platform. -/
def prologue : List SetUpStep :=
  [bindPlatform, attachInterrupts, attachImages, attachErrors, startTrace, enableTrace,
    limitNesting, writeVector]

/-- The steps that a configuration asks for, in order. -/
def plan (config : Config) : List SetUpStep :=
  prologue ++ (if config.basicHandlers then System.basicHandlers.map addBasic else []) ++
    (if config.errorHandlers then System.errorHandlers.map addError else []) ++
    [countHandlers, announce]

/-- No step is asked for twice. -/
theorem nodup_plan (config : Config) : (plan config).Nodup := by
  rw [plan]
  cases config.basicHandlers <;> cases config.errorHandlers <;> decide +kernel

/-- Carries out a step. -/
def perform [Client σ] (mode : TrapMode) (notes : SetUpNotes) : SetUpStep → Exec σ SetUpNotes
  | bindPlatform => do
    Machine.theSystem.update fun s => { s with bound := true }
    return notes
  | attachInterrupts => do
    modify fun m =>
      { m with system.interrupts := ⟨m.platform.interfaces.csrs, m.platform.trapEntry⟩ }
    return notes
  | attachImages => do
    modify fun m => { m with system.nesting.attached := m.platform.interfaces.images }
    return notes
  | attachErrors => do
    Machine.theErrors.update fun t => { t with attached := true, traced := true }
    return notes
  | startTrace => do
    modify fun m =>
      { m with system.trace := m.system.trace.start m.platform.interfaces.firmware }
    return notes
  | enableTrace => do
    Machine.theSystem.update fun s => { s with trace.enabled := s.config.traced }
    return notes
  | limitNesting => do
    Machine.theSystem.update fun s => { s with nesting := s.nesting.setLimit s.config.nestLimit }
    return { notes with limit := (← getThe (Machine σ)).system.nesting.limit }
  | writeVector => do
    modify fun m =>
      { m with platform.csrs := m.system.interrupts.setVector mode m.platform.csrs }
    return notes
  | addBasic d => do
    System.installBasicHandler d
    return notes
  | addError p => do
    System.installErrorHandler p
    return notes
  | countHandlers => do return { notes with installed := ← System.countHandlers }
  | announce => do
    System.announceReady mode notes.limit notes.installed
    return notes

variable [Client σ]

/-- Steps that keep nothing in mind. -/
theorem foldlM_map_act {β : Type} (f : β → SetUpStep) (act : β → Exec σ Unit) (mode : TrapMode)
    (hf : ∀ b notes, (f b).perform mode notes = do act b; return notes) (l : List β)
    (notes : SetUpNotes) :
    (l.map f).foldlM (fun notes s => s.perform mode notes) notes = do
      l.forM act
      return notes := by
  induction l with
  | nil => rfl
  | cons b l ih =>
    rw [List.map_cons, List.foldlM_cons, hf, bind_assoc]
    simp only [pure_bind, ih, List.forM_eq_forM, List.forM_cons, bind_assoc]

/-- Steps that are there or not, as a part of the configuration asks. -/
theorem foldlM_asked {β : Type} (f : β → SetUpStep) (act : β → Exec σ Unit) (mode : TrapMode)
    (hf : ∀ b notes, (f b).perform mode notes = do act b; return notes) (l : List β)
    (asked : Bool) (notes : SetUpNotes) :
    (if asked then l.map f else []).foldlM (fun notes s => s.perform mode notes) notes = do
      if asked then l.forM act
      return notes := by
  cases asked with
  | false => rfl
  | true => exact foldlM_map_act f act mode hf l notes

/-- The set-up is its steps, one after the other. -/
theorem setUp_eq (mode : TrapMode) :
    System.setUp (σ := σ) mode = do
      let m ← getThe (Machine σ)
      let _ ← (plan m.system.config).foldlM (fun notes s => s.perform mode notes) {}
      return := by
  funext m
  show Exec.runOn _ m = Exec.runOn _ m
  let m₁ : Machine σ :=
    { m with system := (System.attach mode m.platform m.system).1
             platform := (System.attach mode m.platform m.system).2 }
  -- the prologue comes to `attach`, and none of its steps can fail
  have hprologue : Exec.runOn (prologue.foldlM (fun notes s => s.perform mode notes) {}) m =
      (.ok { limit := m₁.system.nesting.limit }, m₁) := rfl
  have hbasic := foldlM_asked (σ := σ) addBasic System.installBasicHandler mode
    (fun _ _ => rfl) System.basicHandlers m.system.config.basicHandlers
  have herror := foldlM_asked (σ := σ) addError System.installErrorHandler mode
    (fun _ _ => rfl) System.errorHandlers m.system.config.errorHandlers
  rw [Exec.runOn_bind_of_ok (Exec.runOn_get m), plan]
  simp only [List.foldlM_append, hbasic, herror, bind_assoc]
  rw [Exec.runOn_bind_of_ok hprologue]
  show Exec.runOn (do
    if m.system.config.basicHandlers then System.installBasic
    if m.system.config.errorHandlers then System.installErrors
    System.announceReady mode m₁.system.nesting.limit (← System.countHandlers)) m₁ = _
  have hlast (notes : SetUpNotes) :
      (do
        let _ ← [countHandlers, announce].foldlM (fun notes s => s.perform mode notes) notes
        return : Exec σ Unit) =
      (do System.announceReady mode notes.limit (← System.countHandlers)) := by
    simp only [List.foldlM_cons, List.foldlM_nil, perform, bind_assoc, pure_bind, bind_pure_unit]
  simp only [hlast]
  cases m.system.config.basicHandlers <;> cases m.system.config.errorHandlers
  all_goals
    simp only [reduceIte, Bool.false_eq_true, bind_assoc, pure_bind, System.installBasic,
      System.installErrors]

end SetUpStep

/-! ### Requests -/

/-- How far a request to start the system has come. -/
inductive StartPhase where
  /-- It is about to claim the start. -/
  | asking
  /-- It has claimed the start, and some steps of the set-up are left. -/
  | settingUp (left : List SetUpStep) (notes : SetUpNotes)
  /-- It came too late. -/
  | refused
  /-- It came too late and was told so. -/
  | waiting
  | returned (first : Bool)
deriving DecidableEq

namespace StartPhase

open SetUpStep (plan)

variable [Client σ]

/-- The next step of a request; gives how far it has come then. -/
def act (mode : TrapMode) : StartPhase → Exec σ StartPhase
  | asking => do
    if ← System.claim then
      return settingUp (plan (← getThe (Machine σ)).system.config) {}
    else return refused
  | settingUp (s :: left) notes => do return settingUp left (← s.perform mode notes)
  | settingUp [] _ => do
    System.publish
    return returned true
  | refused => do
    System.ignoreRequest
    return waiting
  | waiting => do return if (← getThe (Machine σ)).system.ready then returned false else waiting
  | returned first => return returned first

/-- What is left of a request. -/
def rest (mode : TrapMode) : StartPhase → Exec σ Bool
  | asking => System.start mode
  | settingUp left notes => do
    let _ ← left.foldlM (fun notes s => s.perform mode notes) notes
    System.publish
    return true
  | refused => do
    System.turnAway
    return false
  | waiting => do
    unless (← getThe (Machine σ)).system.ready do throw .waits
    return false
  | returned first => return first

/-- The steps of a request, one after the other, are the request. -/
theorem rest_eq (mode : TrapMode) (p : StartPhase) :
    p.rest mode = (p.act mode >>= rest mode : Exec σ Bool) := by
  cases p with
  | asking =>
    rw [rest, System.start, act, bind_assoc]
    congr 1
    funext first
    cases first with
    | true =>
      simp only [reduceIte, bind_assoc, pure_bind, rest, SetUpStep.setUp_eq]
    | false => rfl
  | settingUp left notes =>
    cases left with
    | nil => rfl
    | cons s left => simp only [rest, act, List.foldlM_cons, bind_assoc, pure_bind]
  | refused =>
    simp only [rest, act, System.turnAway, bind_assoc, pure_bind]
    congr 1
    funext _
    congr 1
    funext m
    cases m.system.ready <;> rfl
  | waiting =>
    -- a request that goes on waiting looks at the machine again
    funext m
    show Exec.runOn _ m = Exec.runOn _ m
    have hact : Exec.runOn (act mode waiting) m =
        (.ok (if m.system.ready then returned false else waiting), m) := rfl
    rw [Exec.runOn_bind_of_ok hact]
    by_cases hready : m.system.ready = true
    · rw [if_pos hready, rest, Exec.runOn_bind_of_ok (Exec.runOn_get m), if_pos hready]
    · rw [if_neg hready]
      rfl
  | returned first => rfl

end StartPhase

/-! ### What the set-up is about -/

/-- A lock, whoever holds it. -/
def Spinlock.unowned (l : Spinlock) : Spinlock := ⟨l.flag, noOwner⟩

/-- The system without the events of its trace and the holders of its locks. -/
def System.bare (s : System) : System :=
  { s with
    trace := s.trace.clear
    lock := s.lock.unowned
    errors.lock := s.errors.lock.unowned }

/-- What the set-up is about: the system, and what the platform has to do with it. -/
structure Setting where
  system : System
  interfaces : Interfaces
  /-- The address of the code that takes traps. -/
  entry : UInt64
  /-- Where the hart goes with a trap. -/
  vector : UInt64

def Setting.theRegistry : Part Setting Registry where
  get c := c.system.registry
  set r c := { c with system.registry := r }

def Setting.theErrorSlots : Part Setting (SlotTable ErrorProposal errorCapacity) where
  get c := c.system.errors.slots
  set slots c := { c with system.errors.slots := slots }

def Machine.setting (m : Machine σ) : Setting :=
  ⟨m.system.bare, m.platform.interfaces, m.platform.trapEntry, m.platform.csrs.stvec⟩

/-- What a step of the set-up makes of the setting. -/
def SetUpStep.apply (mode : TrapMode) (c : Setting) : SetUpStep → Setting
  | bindPlatform => { c with system.bound := true }
  | attachInterrupts => { c with system.interrupts := ⟨c.interfaces.csrs, c.entry⟩ }
  | attachImages => { c with system.nesting.attached := c.interfaces.images }
  | attachErrors => { c with system.errors.attached := true, system.errors.traced := true }
  | startTrace => { c with system.trace.clocked := c.interfaces.firmware }
  | enableTrace => { c with system.trace.enabled := c.system.config.traced }
  | limitNesting => { c with system.nesting := c.system.nesting.setLimit c.system.config.nestLimit }
  | writeVector =>
    let h := c.system.interrupts
    { c with vector := if h.attached then (h.entry &&& ~~~3) ||| mode.bits else c.vector }
  | addBasic (t, h, description) =>
    if c.system.lock.flag then c
    else
      { c with
        system.registry := (c.system.registry.add t ⟨some (.basic h), some description, {}⟩).2 }
  | addError p =>
    if c.system.errors.lock.flag then c
    else { c with system.errors := (c.system.errors.add p).2 }
  | countHandlers => c
  | announce => c

namespace SetUpStep

/-- The set-up itself neither claims the start nor makes the system ready. -/
theorem apply_flags (mode : TrapMode) (c : Setting) (s : SetUpStep) :
    (s.apply mode c).system.claimed = c.system.claimed ∧
      (s.apply mode c).system.ready = c.system.ready := by
  cases s with
  | addBasic | addError =>
    rw [apply]
    split <;> exact ⟨rfl, rfl⟩
  | _ => exact ⟨rfl, rfl⟩

theorem foldl_apply_flags (mode : TrapMode) (steps : List SetUpStep) (c : Setting) :
    (steps.foldl (apply mode) c).system.claimed = c.system.claimed ∧
      (steps.foldl (apply mode) c).system.ready = c.system.ready := by
  induction steps generalizing c with
  | nil => exact ⟨rfl, rfl⟩
  | cons s steps ih =>
    obtain ⟨hclaimed, hready⟩ := apply_flags mode c s
    obtain ⟨hclaimed', hready'⟩ := ih (s.apply mode c)
    exact ⟨hclaimed'.trans hclaimed, hready'.trans hready⟩

/-- The change of the registry that installs a basic handler. -/
def basicChange (d : TrapType × BasicHandler × String) : Change :=
  .add d.1 ⟨some (.basic d.2.1), some d.2.2, {}⟩

/-- Steps that each make a change of one table make all of the changes if its lock is free, and
none of another part in any case. -/
theorem foldl_under_lock {A β : Type} {mode : TrapMode} (table : Part Setting A)
    {taken : Setting → Bool} (apart : ∀ a c, taken (table.set a c) = taken c) (f : β → SetUpStep)
    (change : A → β → A)
    (hf : ∀ b c, (f b).apply mode c =
      if taken c then c else table.set (change (table.get c) b) c) (l : List β) (c : Setting) :
    ∃ a, (l.map f).foldl (apply mode) c = table.set a c ∧
      (taken c = false → a = l.foldl change (table.get c)) := by
  induction l generalizing c with
  | nil => exact ⟨table.get c, (table.set_get c).symm, fun _ => rfl⟩
  | cons b l ih =>
    -- no change of the table takes its lock or gives it back
    rw [List.map_cons, List.foldl_cons, hf]
    cases htaken : taken c with
    | true =>
      obtain ⟨a, hfold, -⟩ := ih c
      exact ⟨a, hfold, nofun⟩
    | false =>
      obtain ⟨a, hfold, hall⟩ := ih (table.set (change (table.get c) b) c)
      rw [table.set_set] at hfold
      rw [apart, table.get_set] at hall
      exact ⟨a, hfold, fun _ => hall htaken⟩

/-- After its prologue the set-up changes nothing but the tables. -/
theorem foldl_plan (mode : TrapMode) (config : Config) (c : Setting) :
    ∃ r slots, (plan config).foldl (apply mode) c =
        { prologue.foldl (apply mode) c with
          system.registry := r
          system.errors.slots := slots } ∧
      (c.system.lock.flag = false → r = c.system.registry.run
        ((if config.basicHandlers then System.basicHandlers else []).map basicChange)) ∧
      (c.system.errors.lock.flag = false → slots =
        (if config.errorHandlers then System.errorHandlers else []).foldl (fun t p => (t.add p).2)
          c.system.errors.slots) := by
  have hbasic : (if config.basicHandlers then System.basicHandlers.map addBasic else []) =
      (if config.basicHandlers then System.basicHandlers else []).map addBasic := by
    cases config.basicHandlers <;> rfl
  have herror : (if config.errorHandlers then System.errorHandlers.map addError else []) =
      (if config.errorHandlers then System.errorHandlers else []).map addError := by
    cases config.errorHandlers <;> rfl
  obtain ⟨r, hr, hrun⟩ := foldl_under_lock Setting.theRegistry (fun _ _ => rfl) addBasic
    (fun r d => r.after (basicChange d)) (fun _ _ => rfl)
    (if config.basicHandlers then System.basicHandlers else []) (prologue.foldl (apply mode) c)
  obtain ⟨slots, hslots, hadded⟩ := foldl_under_lock Setting.theErrorSlots (fun _ _ => rfl)
    addError (fun t p => (t.add p).2) (fun _ _ => rfl)
    (if config.errorHandlers then System.errorHandlers else [])
    (Setting.theRegistry.set r (prologue.foldl (apply mode) c))
  refine ⟨r, slots, ?_, fun hfree => ?_, hadded⟩
  · rw [plan, hbasic, herror, List.foldl_append, List.foldl_append, List.foldl_append, hr, hslots]
    rfl
  · rw [Registry.run, List.foldl_map]
    exact hrun hfree

end SetUpStep

/-- From one machine to the other nobody claims the start or makes the system ready, and as long as
it is not ready the setting stays as it is. -/
structure Heeds (m m' : Machine σ) : Prop where
  claimed : m'.system.claimed = m.system.claimed
  ready : m'.system.ready = m.system.ready
  setting : m.system.ready = false → m'.setting = m.setting

namespace Heeds

theorem of_setting {m m' : Machine σ} (h : m'.setting = m.setting) : Heeds m m' where
  claimed := congrArg (·.system.claimed) h
  ready := congrArg (·.system.ready) h
  setting _ := h

instance : IsPreorder (Machine σ) Heeds where
  refl _ := of_setting rfl
  trans _ _ _ h h' :=
    ⟨h'.claimed.trans h.claimed, h'.ready.trans h.ready, fun early =>
      (h'.setting (h.ready.trans early)).trans (h.setting early)⟩

theorem of_keeps {x : Exec σ α} (h : Exec.Keeps x Machine.setting) : Exec.Leads x Heeds :=
  .of_keeps h fun _ _ => of_setting

end Heeds

/-- What heeds the start leaves the setting as the action before it has left it. -/
theorem Exec.setting_bind {β : Type} {x : Exec σ α} {f : α → Exec σ β}
    (hf : ∀ a, Leads (f a) Heeds) {m : Machine σ} {c : Setting}
    (hx : (runOn x m).2.setting = c) (early : c.system.ready = false) :
    (runOn (x >>= f) m).2.setting = c := by
  cases hrun : runOn x m with
  | mk r m' =>
    rw [hrun] at hx
    cases r with
    | ok a =>
      rw [runOn_bind_of_ok hrun, ((hf a) m').setting ((congrArg (·.system.ready) hx).trans early)]
      exact hx
    | error e =>
      rw [runOn_bind_of_error hrun]
      exact hx

/-! ### What the steps make of the setting -/

theorem Machine.setting_hartId (m : Machine σ) :
    (thePlatform.set m.platform.hartId.2 m).setting = m.setting := by
  obtain ⟨hart, next, h⟩ := m.platform.hartId_snd_eq
  rw [h]
  rfl

theorem System.currentHart_setting : Exec.Keeps (System.currentHart (σ := σ)) Machine.setting :=
  currentHart_keeps Machine.setting_hartId

theorem ErrorSite.currentHart_setting :
    Exec.Keeps (ErrorSite.system (σ := σ)).currentHart Machine.setting :=
  .bind (.read _) fun _ => .ite Machine.setting_hartId (.pure 0)

/-- What comes to the trace is no part of the setting. -/
theorem System.note_setting (kind : EventKind) (name : Text) (value : UInt64) :
    Exec.Keeps (System.note (σ := σ) kind name value) Machine.setting := by
  have hrecord (now : UInt64) : Exec.Keeps (do
      Machine.theTrace.update (σ := σ) (·.record now kind name value)
      return true) Machine.setting := by
    refine .bind (fun m => ?_) fun _ => .pure true
    have hclear : (m.system.trace.record now kind name value).clear = m.system.trace.clear := by
      rw [Trace.record]
      split <;> rfl
    show Setting.mk { m.system.bare with
      trace := (m.system.trace.record now kind name value).clear } _ _ _ = _
    rw [hclear]
    rfl
  exact .bind (.bind (.read _) fun t => .ite
    (.ite (.bind (fun _ => rfl) hrecord) (.bind (.pure 0) hrecord)) (.pure false)) fun _ => .pure ()

/-- Under a lock that is free the body runs, with the same setting but for the lock; under a lock
that is taken nothing happens to the setting. -/
theorem runOn_locked_setting {lock : Part (Machine σ) Spinlock} {hart : Exec σ UInt32}
    (hhart : AsksHart hart) (hkeeps : Exec.Keeps hart Machine.setting)
    (happart : lock.Apart Machine.thePlatform) (body : Exec σ α) (a : α) (m : Machine σ) :
    ∃ p, (Machine.thePlatform.set p m).setting = m.setting ∧
      (((lock.get m).flag = false ∧ ∃ core,
          Exec.runOn (do withLock lock (← hart) body (return a)) m =
            Exec.runOn (body.finally fun m => lock.set (lock.get m).release m)
              (lock.set ⟨true, core⟩ (Machine.thePlatform.set p m))) ∨
        ((lock.get m).flag = true ∧ ∃ r,
          Exec.runOn (do withLock lock (← hart) body (return a)) m =
            (r, Machine.thePlatform.set p m))) := by
  cases hflag : (lock.get m).flag with
  | false =>
    obtain ⟨core, p, hcore, hrun⟩ := runOn_locked hhart happart body (return a) hflag
    exact ⟨p, hkeeps.of_runOn hcore, .inl ⟨rfl, core, hrun⟩⟩
  | true =>
    obtain ⟨core, r, p, hcore, -, hrun⟩ := runOn_locked_of_taken hhart happart body a hflag
    exact ⟨p, hkeeps.of_runOn hcore, .inr ⟨rfl, r, hrun⟩⟩

/-- What is changed in the registry under its lock is changed in the setting, unless the lock is
taken. -/
theorem System.setting_locked_change {β : Type} (f : Registry → β × Registry) (refusal : β)
    (m : Machine σ) :
    (Exec.runOn (locked (Machine.theRegistry.change f) (return refusal)) m).2.setting =
      if m.system.lock.flag then m.setting
      else { m.setting with system.registry := (f m.system.registry).2 } := by
  obtain ⟨p, hp, ⟨hfree, core, hrun⟩ | ⟨htaken, r, hrun⟩⟩ := runOn_locked_setting
    asksHart_currentHart currentHart_setting lock_apart_platform (Machine.theRegistry.change f)
    refusal m
  · have hflag : m.system.lock.flag = false := hfree
    have hlock : m.system.bare.lock = ⟨false, noOwner⟩ := congrArg (Spinlock.mk · noOwner) hflag
    rw [locked, hrun, hflag, ← hp]
    show Setting.mk { m.system.bare with
      registry := (f m.system.registry).2, lock := ⟨false, noOwner⟩ } _ _ _ = _
    rw [← hlock]
    rfl
  · have hflag : m.system.lock.flag = true := htaken
    rw [locked, hrun, hflag]
    exact hp

theorem System.countHandlers_setting :
    Exec.Keeps (System.countHandlers (σ := σ)) Machine.setting := by
  intro m
  obtain ⟨p, hp, ⟨hfree, core, hrun⟩ | ⟨-, r, hrun⟩⟩ := runOn_locked_setting
    asksHart_currentHart currentHart_setting lock_apart_platform
    (do return (← Machine.theRegistry.read).total) 0 m
  · have hlock : m.system.bare.lock = ⟨false, noOwner⟩ := congrArg (Spinlock.mk · noOwner) hfree
    rw [countHandlers, locked, hrun, ← hp]
    show Setting.mk { m.system.bare with lock := ⟨false, noOwner⟩ } _ _ _ = _
    rw [← hlock]
    rfl
  · rw [countHandlers, locked, hrun]
    exact hp

theorem ErrorTable.add_of_incomplete {p : ErrorProposal}
    (h : (p.handler.isNone || p.description.isNone) = true) (t : ErrorTable) :
    (t.add p).2 = t := by
  have hincomplete : (!Tabled.complete p) = true := by
    rw [Bool.or_eq_true, Option.isNone_iff_eq_none, Option.isNone_iff_eq_none] at h
    show (!(p.handler.isSome && p.description.isSome)) = true
    rcases h with h | h <;> simp [h]
  rw [add, SlotTable.add, if_pos hincomplete]

/-- An error handler is added to the setting, unless the lock of the errors is taken. -/
theorem ErrorSite.setting_register (p : ErrorProposal) (m : Machine σ) :
    (Exec.runOn (ErrorSite.system.register p) m).2.setting =
      if m.system.errors.lock.flag then m.setting
      else { m.setting with system.errors := (m.setting.system.errors.add p).2 } := by
  rw [register]
  by_cases hmissing : (p.handler.isNone || p.description.isNone) = true
  · rw [if_pos hmissing, ErrorTable.add_of_incomplete hmissing]
    exact (ite_self m.setting).symm
  rw [if_neg hmissing]
  obtain ⟨platform, hp, ⟨hfree, core, hrun⟩ | ⟨htaken, r, hrun⟩⟩ := runOn_locked_setting
    system.asksHart_currentHart currentHart_setting system.lock_apart_platform
    (system.table.change (·.add p)) .locked m
  · have hflag : m.system.errors.lock.flag = false := hfree
    have hlock : m.system.bare.errors.lock = ⟨false, noOwner⟩ :=
      congrArg (Spinlock.mk · noOwner) hflag
    rw [locked, hrun, hflag, ← hp]
    show Setting.mk { m.system.bare with
      errors := { (m.system.bare.errors.add p).2 with lock := ⟨false, noOwner⟩ } } _ _ _ = _
    rw [← hlock]
    rfl
  · have hflag : m.system.errors.lock.flag = true := htaken
    rw [locked, hrun, hflag]
    exact hp

section

variable [Client σ] (written : ∀ text, Exec.Leads (Client.written (σ := σ) text) Heeds)

include written

theorem putLine_heeds (sink : Sink) (pieces : List Text) :
    Exec.Leads (putLine (σ := σ) sink pieces) Heeds :=
  putLine_leads (fun _ _ => .of_setting rfl) written sink pieces

/-- A step of the set-up makes of the setting what it should, however it ends. -/
theorem SetUpStep.setting_perform (mode : TrapMode) (notes : SetUpNotes) (s : SetUpStep)
    {m : Machine σ} (early : m.system.ready = false) :
    (Exec.runOn (s.perform mode notes) m).2.setting = s.apply mode m.setting := by
  have hconsole : Exec.Leads (System.console (σ := σ)) Heeds := fun _ => .of_setting rfl
  have hline (sink : Sink) (pieces : List Text) :
      Exec.Leads (putLine (σ := σ) sink pieces) Heeds := putLine_heeds written sink pieces
  cases s with
  | addBasic d =>
    obtain ⟨t, h, description⟩ := d
    let p : Proposal := ⟨some (.basic h), some description, {}⟩
    have hadd := System.setting_locked_change (·.add t p) RegistryStatus.locked m
    have hnote : Exec.Leads (System.note (σ := σ) .handlerAdded t.name p.terms.registrar) Heeds :=
      Heeds.of_keeps (System.note_setting _ _ _)
    -- only the registration matters; the note of it, and the line if it is refused, heed the start
    rw [perform, System.installBasicHandler, System.register, bind_assoc, bind_assoc]
    refine Exec.setting_bind (fun status => ?_) hadd ?_
    · refine .bind (.ite (.bind hnote fun _ => .pure _) (.pure _)) fun _ => ?_
      exact .bind (.ite (.bind hconsole fun sink => hline sink _) (.pure _)) fun _ => .pure _
    · exact (apply_flags _ _ _).2.trans early
  | addError p =>
    rw [perform, System.installErrorHandler, bind_assoc]
    refine Exec.setting_bind (fun status => ?_) (ErrorSite.setting_register p m) ?_
    · exact .bind (.ite (.bind hconsole fun sink => hline sink _) (.pure _)) fun _ => .pure _
    · exact (apply_flags _ _ _).2.trans early
  | countHandlers =>
    exact Exec.setting_bind (fun _ => .pure _) (System.countHandlers_setting m) early
  | announce =>
    have hannounce : Exec.Leads (System.announceReady (σ := σ) mode notes.limit notes.installed)
        Heeds := .bind .get fun _ => .bind hconsole fun sink => hline sink _
    have hperform : Exec.Leads (perform (σ := σ) mode notes announce) Heeds :=
      .bind hannounce fun _ => .pure _
    exact (hperform m).setting early
  | writeVector =>
    have hvector : (m.system.interrupts.setVector mode m.platform.csrs).stvec =
        if m.system.interrupts.attached then (m.system.interrupts.entry &&& ~~~3) ||| mode.bits
        else m.platform.csrs.stvec := by
      rw [InterruptControl.setVector, InterruptControl.guarded]
      cases m.system.interrupts.attached <;> rfl
    show Setting.mk m.system.bare m.platform.interfaces m.platform.trapEntry
      (m.system.interrupts.setVector mode m.platform.csrs).stvec = _
    rw [hvector]
    rfl
  | _ => rfl

end

end Supervisor
