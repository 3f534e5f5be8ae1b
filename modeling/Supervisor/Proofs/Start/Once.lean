/-
The system is started once.

Any number of requests to start the system go their steps in any order, and other operations come
between them: calls of the interface, traps, and whatever else heeds the start.

* `Startup`, `Startup.Step` — a machine, how far each request has come, and one step of the whole;
* `Api.Call.perform_heeds`, `takeTrap_heeds` — calls and traps leave the start to the requests;
* `IsSetUp` — what the set-up has made of the machine;
* `Startup.Standing` — the four ways in which the start stands at any time;
* `Startup.one_request_starts_the_system` — one request at most starts the system, it carries out
  each step of the set-up once and then makes the system ready, and nobody else has a part in it.

Design notes: a request that is stopped goes no further.  A request that waits may look again as
often as it likes.
-/
import Mathlib.Logic.Function.Basic
import Mathlib.Logic.Relation
import Supervisor.Proofs.Api.Readiness
import Supervisor.Proofs.Fault.History
import Supervisor.Proofs.Start.Steps
import Supervisor.Proofs.Trap.Work

namespace Supervisor

open Function (update update_eq_self update_of_ne update_self)
open Relation (ReflTransGen)

variable {σ ι α : Type}

/-! ### Operations that heed the start -/

/-- From one machine to the other the start has come as far as before. -/
def SameFlags (m m' : Machine σ) : Prop := m'.outline.2 = m.outline.2

instance : IsPreorder (Machine σ) SameFlags where
  refl _ := rfl
  trans _ _ _ h h' := h'.trans h

theorem Heeds.sameFlags {m m' : Machine σ} (h : Heeds m m') : SameFlags m m' :=
  Prod.ext h.claimed h.ready

/-- Once the system is ready, nothing but the flags has to stay. -/
theorem Heeds.of_ready {m m' : Machine σ} (ready : m.system.ready = true) (h : SameFlags m m') :
    Heeds m m' where
  claimed := congrArg Prod.fst h
  ready := congrArg Prod.snd h
  setting early := by rw [ready] at early; cases early

section

variable [Client σ] (written : ∀ text, Exec.Leads (Client.written (σ := σ) text) Heeds)
  (handlers : ∀ n e, Exec.Leads (Client.errorHandler (σ := σ) n e) Heeds)

include written handlers

theorem SameFlags.of_work {may : Registry.Change → Prop} {x : Exec σ α} (h : Work may x) :
    Exec.Leads x SameFlags :=
  h.leads (fun _ _ hsame => congrArg Prod.snd hsame)
    (fun _ _ _ _ hchange => (congrArg Prod.snd hchange).trans rfl)
    (fun text m => (written text m).sameFlags) fun n e m => (handlers n e m).sameFlags

/-- A call of the interface heeds the start: it is turned away before, and has nothing to do with
it afterwards. -/
theorem Api.Call.perform_heeds (c : Api.Call) : Exec.Leads (c.perform (σ := σ)) Heeds := by
  intro m
  cases hready : m.system.ready with
  | false =>
    rw [c.runOn_perform_early hready]
    exact .of_setting rfl
  | true =>
    cases hdraws : c.draws with
    | false =>
      have hwork : Work (fun _ => True) (c.perform (σ := σ)) :=
        perform_work hdraws fun _ _ => trivial
      exact .of_ready hready (SameFlags.of_work written handlers hwork m)
    | true =>
      cases c with
      | newContextId | newRegistrar => exact .of_setting rfl
      | _ => cases hdraws

/-- A trap heeds the start: it gives up before, and has nothing to do with it afterwards. -/
theorem takeTrap_heeds (traps : ∀ n, TrapExec.Leads (Client.trapHandler (σ := σ) n) Heeds) :
    TrapExec.Leads (takeTrap (σ := σ)) Heeds := by
  intro f m
  cases hready : m.system.ready with
  | false =>
    have hcheck : TrapExec.runOn (getThe (Machine σ) : TrapExec σ (Machine σ)) f m =
        ((.ok m, f), m) := rfl
    rw [takeTrap, TrapExec.runOn_bind_of_ok hcheck, hready, if_neg Bool.false_ne_true]
    exact .of_setting rfl
  | true =>
    have hflags : TrapExec.Leads (takeTrap (σ := σ)) SameFlags :=
      takeTrap_work.leads (fun _ _ hsame => congrArg Prod.snd hsame)
        (fun text m => (written text m).sameFlags) (fun n e m => (handlers n e m).sameFlags)
        fun n f m => (traps n f m).sameFlags
    exact .of_ready hready (hflags f m)

end

/-! ### Requests and what comes between them -/

/-- The line that a request is given that comes too late. -/
def tooLate : Text := "[TRAP] trap system already initialized, ignoring request\n"

/-- The machine after a line was written to its console and the observers were shown it. -/
def Machine.shown [Client σ] (text : Text) (m : Machine σ) : Machine σ :=
  (Exec.runOn (Client.written text) (thePlatform.set (m.platform.write text) m)).2

/-- A machine, and how far the requests to start its system have come. -/
structure Startup (σ ι : Type) where
  machine : Machine σ
  /-- How far each request has come, or what has stopped it. -/
  requests : ι → Except Stop StartPhase
  /-- The steps of the set-up that were carried out, each with its request. -/
  done : List (ι × SetUpStep)

namespace Startup

open SetUpStep (apply plan)

/-- A machine whose system nobody has asked to start yet. -/
def fresh (m : Machine σ) : Startup σ ι := ⟨m, fun _ => .ok .asking, []⟩

/-- The step of the set-up that a request has carried out. -/
def credit (i : ι) : StartPhase → Except Stop StartPhase → List (ι × SetUpStep)
  | .settingUp (s :: _) _, .ok _ => [(i, s)]
  | _, _ => []

/-- The next step of a request. -/
def proceed [DecidableEq ι] [Client σ] (mode : ι → TrapMode) (i : ι) (s : Startup σ ι) :
    Startup σ ι :=
  match s.requests i with
  | .error _ => s
  | .ok p =>
    let (r, machine) := Exec.runOn (p.act (mode i)) s.machine
    ⟨machine, update s.requests i r, s.done ++ credit i p r⟩

/-- A step of a request, or something that comes between them. -/
inductive Step [DecidableEq ι] [Client σ] (mode : ι → TrapMode) (s : Startup σ ι) :
    Startup σ ι → Prop
  | request (i : ι) : Step mode s (s.proceed mode i)
  | call (c : Api.Call) : Step mode s { s with machine := (Exec.runOn c.perform s.machine).2 }
  | trap (f : Frame) : Step mode s { s with machine := (TrapExec.runOn takeTrap f s.machine).2 }
  | other {α : Type} {x : Exec σ α} (heeds : Exec.Leads x Heeds) :
      Step mode s { s with machine := (Exec.runOn x s.machine).2 }

/-! ### How the start stands -/

/-- Whether a request has come too late, or nowhere yet. -/
def Loses (ready : Bool) : Except Stop StartPhase → Prop
  | .ok .asking | .ok .refused | .ok .waiting | .error _ => True
  | .ok (.returned first) => first = false ∧ ready = true
  | .ok (.settingUp _ _) => False

/-- As long as the system is not ready, no request that loses has returned. -/
theorem Loses.of_early {r : Except Stop StartPhase} (h : Loses false r) (ready : Bool) :
    Loses ready r := by
  cases r with
  | error e => trivial
  | ok p =>
    cases p with
    | asking | refused | waiting => trivial
    | settingUp => exact h.elim
    | returned first => cases h.2

/-- A request has claimed the start, and has carried out the steps of the set-up up to here. -/
structure SettingUp (start : Machine σ) (mode : ι → TrapMode) (s : Startup σ ι) (i : ι)
    (before left : List SetUpStep) (notes : SetUpNotes) : Prop where
  setting : s.machine.setting =
    before.foldl (apply (mode i)) { start.setting with system.claimed := true }
  planned : before ++ left = plan start.system.config
  winner : s.requests i = .ok (.settingUp left notes)
  others : ∀ j, j ≠ i → Loses false (s.requests j)
  done : s.done = before.map (i, ·)

/-- How the start stands: nobody has claimed it; or one request has, and is setting the system up,
was stopped at that, or has made the system ready. -/
inductive Standing (start : Machine σ) (mode : ι → TrapMode) (s : Startup σ ι) : Prop
  | unclaimed (setting : s.machine.setting = start.setting)
      (requests : ∀ i, s.requests i = .ok .asking) (done : s.done = [])
  | settingUp (i : ι) (before left : List SetUpStep) (notes : SetUpNotes)
      (h : SettingUp start mode s i before left notes)
  | stopped (i : ι) (e : Stop) (claimed : s.machine.system.claimed = true)
      (early : s.machine.system.ready = false) (winner : s.requests i = .error e)
      (others : ∀ j, j ≠ i → Loses false (s.requests j)) (before : List SetUpStep)
      (planned : before <+: plan start.system.config) (done : s.done = before.map (i, ·))
  | ready (i : ι) (claimed : s.machine.system.claimed = true)
      (ready : s.machine.system.ready = true) (winner : s.requests i = .ok (.returned true))
      (others : ∀ j, j ≠ i → Loses true (s.requests j))
      (done : s.done = (plan start.system.config).map (i, ·))

variable {start m : Machine σ} {mode : ι → TrapMode} {s : Startup σ ι} {i j : ι}

/-- Whoever is setting the system up has claimed the start and has not made the system ready. -/
theorem SettingUp.flags {before left : List SetUpStep} {notes : SetUpNotes}
    (h : SettingUp start mode s i before left notes) (early : start.system.ready = false) :
    s.machine.system.claimed = true ∧ s.machine.system.ready = false := by
  obtain ⟨hclaimed, hready⟩ := SetUpStep.foldl_apply_flags (mode i) before
    { start.setting with system.claimed := true }
  rw [← h.setting] at hclaimed hready
  exact ⟨hclaimed, hready.trans early⟩

/-- What heeds the start leaves it as it stands. -/
theorem Standing.of_heeds (h : Standing start mode s) (early : start.system.ready = false)
    (heeds : Heeds s.machine m) : Standing start mode { s with machine := m } := by
  cases h with
  | unclaimed setting requests done =>
    have hearly : s.machine.system.ready = false :=
      (congrArg (·.system.ready) setting).trans early
    exact .unclaimed ((heeds.setting hearly).trans setting) requests done
  | settingUp i before left notes h =>
    have hearly : s.machine.system.ready = false := (h.flags early).2
    exact .settingUp i before left notes
      ⟨(heeds.setting hearly).trans h.setting, h.planned, h.winner, h.others, h.done⟩
  | stopped i e claimed hearly winner others before planned done =>
    exact .stopped i e (heeds.claimed.trans claimed) (heeds.ready.trans hearly) winner others
      before planned done
  | ready i claimed ready winner others done =>
    exact .ready i (heeds.claimed.trans claimed) (heeds.ready.trans ready) winner others done

/-- Each request is setting the system up, has done so, or loses. -/
theorem Standing.cases_request (h : Standing start mode s) (j : ι) :
    (∃ before left notes, SettingUp start mode s j before left notes) ∨
      (s.requests j = .ok (.returned true) ∧ s.machine.system.ready = true) ∨
      Loses s.machine.system.ready (s.requests j) := by
  cases h with
  | unclaimed setting requests =>
    rw [requests j]
    exact .inr (.inr trivial)
  | settingUp i before left notes h =>
    by_cases hj : j = i
    · exact .inl ⟨before, left, notes, hj ▸ h⟩
    · exact .inr (.inr ((h.others j hj).of_early _))
  | stopped i e claimed early winner others =>
    by_cases hj : j = i
    · rw [hj, winner]
      exact .inr (.inr trivial)
    · exact .inr (.inr ((others j hj).of_early _))
  | ready i claimed ready winner others =>
    by_cases hj : j = i
    · exact .inr (.inl ⟨hj ▸ winner, ready⟩)
    · exact .inr (.inr (ready ▸ others j hj))

/-- A request returns only when the system is ready. -/
theorem Standing.ready_of_returned (h : Standing start mode s) {first : Bool}
    (hj : s.requests j = .ok (.returned first)) : s.machine.system.ready = true := by
  obtain ⟨before, left, notes, hsetting⟩ | ⟨-, hready⟩ | hloses := h.cases_request j
  · rw [hsetting.winner] at hj
    cases hj
  · exact hready
  · rw [hj] at hloses
    exact hloses.2

/-- Once the system is ready, one request and no other has set it up. -/
theorem Standing.winner (h : Standing start mode s) (early : start.system.ready = false)
    (ready : s.machine.system.ready = true) :
    ∃ i, s.requests i = .ok (.returned true) ∧
      (∀ j, s.requests j = .ok (.returned true) → j = i) ∧
      s.done = (plan start.system.config).map (i, ·) := by
  cases h with
  | unclaimed setting =>
    have hready : s.machine.system.ready = false :=
      (congrArg (·.system.ready) setting).trans early
    rw [ready] at hready
    cases hready
  | settingUp i before left notes h =>
    have hready : s.machine.system.ready = false := (h.flags early).2
    rw [ready] at hready
    cases hready
  | stopped i e claimed early =>
    rw [ready] at early
    cases early
  | ready i claimed ready winner others done =>
    refine ⟨i, winner, fun j hj => ?_, done⟩
    by_contra hij
    have hloses := others j hij
    rw [hj] at hloses
    cases hloses.1

/-- The steps that were carried out are a beginning of the set-up, by one request. -/
theorem Standing.done_eq (h : Standing start mode s) :
    s.done = [] ∨ ∃ i before, before <+: plan start.system.config ∧ s.done = before.map (i, ·) := by
  cases h with
  | unclaimed setting requests done => exact .inl done
  | settingUp i before left notes h => exact .inr ⟨i, before, ⟨left, h.planned⟩, h.done⟩
  | stopped i e claimed early winner others before planned done =>
    exact .inr ⟨i, before, planned, done⟩
  | ready i claimed ready winner others done => exact .inr ⟨i, _, List.prefix_rfl, done⟩

section

variable [DecidableEq ι]

theorem loses_update {ready : Bool} {requests : ι → Except Stop StartPhase}
    (others : ∀ j, j ≠ i → Loses ready (requests j)) {r : Except Stop StartPhase}
    (hr : Loses ready r) (k : ι) (hk : k ≠ i) : Loses ready (update requests j r k) := by
  by_cases hkj : k = j
  · rw [hkj, update_self]
    exact hr
  · rw [update_of_ne hkj]
    exact others k hk

/-- Once the start is claimed it stands as before when a request that loses goes on. -/
theorem Standing.of_loses (h : Standing start mode s) (unclaimed : start.system.claimed = false)
    (early : start.system.ready = false) (claimed : s.machine.system.claimed = true)
    {p : StartPhase} (hj : s.requests j = .ok p) (loses : Loses s.machine.system.ready (.ok p))
    {r : Except Stop StartPhase} (hr : Loses s.machine.system.ready r)
    (heeds : Heeds s.machine m) :
    Standing start mode ⟨m, update s.requests j r, s.done⟩ := by
  -- whoever loses is not the one who has claimed the start
  have hne {i : ι} {q : Except Stop StartPhase} (hi : s.requests i = q) (hq : .ok p ≠ q) : i ≠ j :=
    fun hij => hq (hj.symm.trans (hij ▸ hi))
  cases h.of_heeds early heeds with
  | unclaimed setting =>
    have hunclaimed : m.system.claimed = false :=
      (congrArg (·.system.claimed) setting).trans unclaimed
    rw [heeds.claimed, claimed] at hunclaimed
    cases hunclaimed
  | settingUp i before left notes h =>
    have hready : s.machine.system.ready = false := heeds.ready.symm.trans (h.flags early).2
    have hij : i ≠ j := hne h.winner fun h => by
      rw [Except.ok.inj h] at loses
      exact loses
    refine .settingUp i before left notes
      ⟨h.setting, h.planned, ?_, loses_update h.others (hready ▸ hr), h.done⟩
    exact (update_of_ne hij _ _).trans h.winner
  | stopped i e claimed early winner others before planned done =>
    have hready : s.machine.system.ready = false := heeds.ready.symm.trans early
    refine .stopped i e claimed early ?_ (loses_update others (hready ▸ hr)) before planned done
    exact (update_of_ne (hne winner nofun) _ _).trans winner
  | ready i claimed ready winner others done =>
    have hready : s.machine.system.ready = true := heeds.ready.symm.trans ready
    have hij : i ≠ j := hne winner fun h => by
      rw [Except.ok.inj h] at loses
      cases loses.1
    refine .ready i claimed ready ?_ (loses_update others (hready ▸ hr)) done
    exact (update_of_ne hij _ _).trans winner

end

/-! ### Requests that lose -/

variable [Client σ]

/-- Whoever asks first claims the start; whoever asks later is refused. -/
theorem runOn_asking (k : TrapMode) (m : Machine σ) :
    Exec.runOn (StartPhase.asking.act k) m =
      (.ok (if m.system.claimed then .refused else .settingUp (plan m.system.config) {}),
        { m with system := { m.system with claimed := true } }) := by
  have hclaim : Exec.runOn System.claim m =
      (.ok (!m.system.claimed), { m with system := { m.system with claimed := true } }) := rfl
  rw [StartPhase.act, Exec.runOn_bind_of_ok hclaim]
  cases m.system.claimed <;> rfl

theorem runOn_ignoreRequest (m : Machine σ) :
    (Exec.runOn System.ignoreRequest m).2 =
      if m.platform.interfaces.console then m.shown tooLate else m := by
  have hconsole : Exec.runOn (platformConsole (σ := σ)) m =
      (.ok (if m.platform.interfaces.console then .console else .nowhere), m) := rfl
  rw [System.ignoreRequest, Exec.runOn_bind_of_ok hconsole]
  cases m.platform.interfaces.console <;> rfl

/-- A request that loses does nothing to the machine, but for the line that it is given. -/
theorem act_of_loses {p : StartPhase} (loses : Loses m.system.ready (.ok p))
    (claimed : m.system.claimed = true) (k : TrapMode) :
    ∃ r m', Exec.runOn (p.act k) m = (r, m') ∧ Loses m.system.ready r ∧
      (∀ i : ι, credit i p r = []) ∧ (m' = m ∨ p = .refused ∧ m' = m.shown tooLate) := by
  cases p with
  | asking =>
    have hsame : { m with system := { m.system with claimed := true } } = m := by rw [← claimed]
    -- to claim what is claimed changes nothing
    refine ⟨.ok .refused, m, ?_, trivial, fun _ => rfl, .inl rfl⟩
    rw [runOn_asking, hsame, claimed, if_pos rfl]
  | settingUp => exact loses.elim
  | refused =>
    have hshown := runOn_ignoreRequest m
    cases hrun : Exec.runOn System.ignoreRequest m with
    | mk r m' =>
      rw [hrun] at hshown
      have hm' : m' = m ∨ StartPhase.refused = .refused ∧ m' = m.shown tooLate := by
        split at hshown
        · exact .inr ⟨rfl, hshown⟩
        · exact .inl hshown
      -- whoever sees the line may stop the request, which does not make it the first one
      cases r with
      | ok _ => exact ⟨_, m', Exec.runOn_bind_of_ok hrun, trivial, fun _ => rfl, hm'⟩
      | error e => exact ⟨_, m', Exec.runOn_bind_of_error hrun, trivial, fun _ => rfl, hm'⟩
  | waiting =>
    have hrun : Exec.runOn (StartPhase.waiting.act k) m =
        (.ok (if m.system.ready then .returned false else .waiting), m) := rfl
    refine ⟨_, m, hrun, ?_, fun _ => rfl, .inl rfl⟩
    cases m.system.ready with
    | true => exact ⟨rfl, rfl⟩
    | false => trivial
  | returned first => exact ⟨.ok (.returned first), m, rfl, loses, fun _ => rfl, .inl rfl⟩

variable [DecidableEq ι]

theorem proceed_of_ok {p : StartPhase} (h : s.requests i = .ok p)
    {r : Except Stop StartPhase} (hrun : Exec.runOn (p.act (mode i)) s.machine = (r, m)) :
    s.proceed mode i = ⟨m, update s.requests i r, s.done ++ credit i p r⟩ := by
  rw [proceed, h]
  dsimp only
  rw [hrun]

theorem proceed_of_error {e : Stop} (h : s.requests i = .error e) : s.proceed mode i = s := by
  rw [proceed, h]

theorem proceed_of_returned {first : Bool} (h : s.requests i = .ok (.returned first)) :
    s.proceed mode i = s := by
  rw [proceed_of_ok h rfl, ← h, update_eq_self]
  have hdone : s.done ++ credit i (.returned first) (s.requests i) = s.done :=
    List.append_nil s.done
  rw [hdone]

/-- Once the start is claimed, a request that is not setting the system up has no part in it. -/
theorem Standing.proceed_of_claimed
    (written : ∀ text, Exec.Leads (Client.written (σ := σ) text) Heeds)
    (h : Standing start mode s) (unclaimed : start.system.claimed = false)
    (early : start.system.ready = false) (claimed : s.machine.system.claimed = true)
    (hj : (s.requests j = .ok (.returned true) ∧ s.machine.system.ready = true) ∨
      Loses s.machine.system.ready (s.requests j)) :
    Standing start mode (s.proceed mode j) ∧ Heeds s.machine (s.proceed mode j).machine ∧
      ((s.proceed mode j).machine = s.machine ∨
        s.requests j = .ok .refused ∧ (s.proceed mode j).machine = s.machine.shown tooLate) := by
  obtain ⟨hreturned, -⟩ | hloses := hj
  · rw [proceed_of_returned hreturned]
    exact ⟨h, .of_setting rfl, .inl rfl⟩
  cases hp : s.requests j with
  | error e =>
    rw [proceed_of_error hp]
    exact ⟨h, .of_setting rfl, .inl rfl⟩
  | ok p =>
    rw [hp] at hloses
    obtain ⟨r, m, hrun, hr, hcredit, hm⟩ := act_of_loses hloses claimed (mode j)
    have heeds : Heeds s.machine m := by
      rcases hm with rfl | ⟨-, rfl⟩
      · exact .of_setting rfl
      · have hwrite : Heeds s.machine
            (Machine.thePlatform.set (s.machine.platform.write tooLate) s.machine) :=
          .of_setting rfl
        exact trans_of Heeds hwrite (written tooLate _)
    rw [proceed_of_ok hp hrun, hcredit, List.append_nil]
    refine ⟨h.of_loses unclaimed early claimed hp hloses hr heeds, heeds, hm.imp_right fun hm => ?_⟩
    exact ⟨hm.1 ▸ rfl, hm.2⟩

/-! ### The request that wins -/

/-- The first request to go on claims the start. -/
theorem claims (unclaimed : start.system.claimed = false)
    (setting : s.machine.setting = start.setting) (requests : ∀ i, s.requests i = .ok .asking)
    (done : s.done = []) (i : ι) :
    SettingUp start mode (s.proceed mode i) i [] (plan start.system.config) {} := by
  have hunclaimed : s.machine.system.claimed = false :=
    (congrArg (·.system.claimed) setting).trans unclaimed
  have hconfig : s.machine.system.config = start.system.config :=
    congrArg (·.system.config) setting
  rw [proceed_of_ok (requests i) (runOn_asking _ _), hunclaimed, if_neg Bool.false_ne_true,
    hconfig]
  refine ⟨?_, rfl, update_self _ _ _, fun j hj => ?_, ?_⟩
  · show { s.machine.setting with system.claimed := true } = _
    rw [setting]
    rfl
  · show Loses false (update s.requests i _ j)
    rw [update_of_ne hj, requests]
    trivial
  · show s.done ++ [] = []
    rw [done, List.append_nil]

/-- Whoever is setting the system up carries out the next step, or is stopped at it. -/
theorem SettingUp.carries_out
    (written : ∀ text, Exec.Leads (Client.written (σ := σ) text) Heeds)
    {before left : List SetUpStep} {step : SetUpStep} {notes : SetUpNotes}
    (h : SettingUp start mode s i before (step :: left) notes)
    (early : start.system.ready = false) :
    Standing start mode (s.proceed mode i) ∧
      (s.proceed mode i).machine.system.ready = false := by
  obtain ⟨hclaimed, hready⟩ := h.flags early
  -- the step makes of the setting what it should, whether it returns or stops
  have hsetting := step.setting_perform written (mode i) notes hready
  have hflags := step.apply_flags (mode i) s.machine.setting
  have hothers (r : Except Stop StartPhase) (j : ι) (hj : j ≠ i) :
      Loses false (update s.requests i r j) := by
    rw [update_of_ne hj]
    exact h.others j hj
  cases hrun : Exec.runOn (step.perform (mode i) notes) s.machine with
  | mk r m =>
    rw [hrun] at hsetting
    rw [← hsetting] at hflags
    have hready' : m.system.ready = false := hflags.2.trans hready
    cases r with
    | ok notes' =>
      have hact : Exec.runOn ((StartPhase.settingUp (step :: left) notes).act (mode i)) s.machine =
          (.ok (.settingUp left notes'), m) := Exec.runOn_bind_of_ok hrun
      rw [proceed_of_ok h.winner hact]
      refine ⟨.settingUp i (before ++ [step]) left notes'
        ⟨?_, ?_, update_self _ _ _, hothers _, ?_⟩, hready'⟩
      · rw [List.foldl_append, ← h.setting]
        exact hsetting
      · rw [List.append_assoc]
        exact h.planned
      · show s.done ++ [(i, step)] = _
        rw [h.done, List.map_append]
        rfl
    | error e =>
      have hact : Exec.runOn ((StartPhase.settingUp (step :: left) notes).act (mode i)) s.machine =
          (.error e, m) := Exec.runOn_bind_of_error hrun
      rw [proceed_of_ok h.winner hact]
      refine ⟨.stopped i e (hflags.1.trans hclaimed) hready' (update_self _ _ _) (hothers _) before
        ⟨_, h.planned⟩ ?_, hready'⟩
      show s.done ++ [] = _
      rw [h.done, List.append_nil]

/-- Whoever has carried out the whole set-up makes the system ready. -/
theorem SettingUp.publishes {before : List SetUpStep} {notes : SetUpNotes}
    (h : SettingUp start mode s i before [] notes) (early : start.system.ready = false) :
    Standing start mode (s.proceed mode i) ∧
      (s.proceed mode i).requests i = .ok (.returned true) ∧
      (s.proceed mode i).done = (plan start.system.config).map (i, ·) ∧
      (s.proceed mode i).machine.setting =
        { (plan start.system.config).foldl (apply (mode i))
            { start.setting with system.claimed := true } with
          system.ready := true } := by
  have hplan : before = plan start.system.config := by
    rw [← h.planned, List.append_nil]
  have hact : Exec.runOn ((StartPhase.settingUp [] notes).act (mode i)) s.machine =
      (.ok (.returned true),
        { s.machine with system := { s.machine.system with ready := true } }) := rfl
  have hdone : s.done ++ credit i (.settingUp [] notes) (.ok (.returned true)) =
      (plan start.system.config).map (i, ·) := by
    rw [← hplan, ← h.done]
    exact List.append_nil _
  rw [proceed_of_ok h.winner hact]
  refine ⟨.ready i (h.flags early).1 rfl (update_self _ _ _) (fun j hj => ?_) hdone,
    update_self _ _ _, hdone, ?_⟩
  · show Loses true (update s.requests i _ j)
    rw [update_of_ne hj]
    exact (h.others j hj).of_early true
  · show { s.machine.setting with system.ready := true } = _
    rw [h.setting, hplan]

end Startup

/-! ### What the winner has made of the machine -/

/-- The handlers that the set-up registers for a trap type. -/
def System.basicProposals (t : TrapType) : List Proposal :=
  (basicHandlers.filter (·.1 = t)).map fun d => ⟨some (.basic d.2.1), some d.2.2, {}⟩

/-- The set-up that a configuration asks for was made of a machine, in a mode. -/
structure IsSetUp (start : Machine σ) (mode : TrapMode) (m : Machine σ) : Prop where
  bound : m.system.bound = true
  config : m.system.config = start.system.config
  interrupts : m.system.interrupts =
    ⟨start.platform.interfaces.csrs, start.platform.trapEntry⟩
  vector : m.platform.csrs.stvec =
    if start.platform.interfaces.csrs then (start.platform.trapEntry &&& ~~~3) ||| mode.bits
    else start.platform.csrs.stvec
  images : m.system.nesting.attached = start.platform.interfaces.images
  limit : m.system.nesting.limit = min (max start.system.config.nestLimit 1) slotCount
  errors : m.system.errors.attached = true ∧ m.system.errors.traced = true
  clocked : m.system.trace.clocked = start.platform.interfaces.firmware
  traced : m.system.trace.enabled = start.system.config.traced
  /-- A registry that was empty, and that nobody held, has the basic handlers that are asked for. -/
  handlers : start.system.registry = {} → start.system.lock.flag = false → ∀ t,
    (m.system.registry.bucket t).toList =
      if start.system.config.basicHandlers then System.basicProposals t else []
  /-- The same for the error handlers. -/
  errorHandlers : start.system.errors.slots = SlotTable.empty →
    start.system.errors.lock.flag = false → m.system.errors.slots.toList =
      if start.system.config.errorHandlers then byPriority System.errorHandlers else []

/-- An empty registry that takes the basic handlers has them, and no others. -/
theorem Registry.bucket_run_basic (t : TrapType) :
    ((run {} (System.basicHandlers.map SetUpStep.basicChange)).bucket t).toList =
      System.basicProposals t := by
  cases t <;> decide +kernel

theorem ErrorTable.slots_run_register (l : List ErrorProposal) (t : ErrorTable) :
    (t.run (l.map .register)).slots = l.foldl (fun t p => (t.add p).2) t.slots := by
  induction l generalizing t with
  | nil => rfl
  | cons p l ih => exact ih (t.add p).2

/-- An empty table that takes the basic error handlers has them, in the order in which they run. -/
theorem ErrorTable.toList_add_basic :
    (System.errorHandlers.foldl (fun t p => (t.add p).2)
      (SlotTable.empty : SlotTable ErrorProposal errorCapacity)).toList =
      byPriority System.errorHandlers := by
  have hledger : ledger (System.errorHandlers.map .register) = System.errorHandlers := by decide
  have hslots := slots_run_register System.errorHandlers {}
  rw [← hslots, (holds_run _).toList_eq, hledger]

theorem IsSetUp.of_setting {start m : Machine σ} {mode : TrapMode}
    (h : m.setting =
      { (SetUpStep.plan start.system.config).foldl (SetUpStep.apply mode)
          { start.setting with system.claimed := true } with
        system.ready := true }) : IsSetUp start mode m := by
  obtain ⟨r, slots, hfold, hr, hslots⟩ := SetUpStep.foldl_plan mode start.system.config
    { start.setting with system.claimed := true }
  rw [hfold] at h
  refine
    { bound := congrArg (·.system.bound) h
      config := congrArg (·.system.config) h
      interrupts := congrArg (·.system.interrupts) h
      vector := congrArg (·.vector) h
      images := congrArg (·.system.nesting.attached) h
      limit := congrArg (·.system.nesting.limit) h
      errors := ⟨congrArg (·.system.errors.attached) h, congrArg (·.system.errors.traced) h⟩
      clocked := congrArg (·.system.trace.clocked) h
      traced := congrArg (·.system.trace.enabled) h
      handlers := fun hempty hfree t => ?_
      errorHandlers := fun hempty hfree => ?_ }
  · have hregistry : m.system.registry = r := congrArg (·.system.registry) h
    have hrun : r = start.system.registry.run _ := hr hfree
    rw [hregistry, hrun, hempty]
    cases start.system.config.basicHandlers with
    | true => exact Registry.bucket_run_basic t
    | false => cases t <;> rfl
  · have hsame : m.system.errors.slots = slots := congrArg (·.system.errors.slots) h
    have hadded : slots = List.foldl _ start.system.errors.slots _ := hslots hfree
    rw [hsame, hadded, hempty]
    cases start.system.config.errorHandlers with
    | true => exact ErrorTable.toList_add_basic
    | false => rfl

namespace Startup

open SetUpStep (plan)

variable [Client σ] [DecidableEq ι] {start : Machine σ} {mode : ι → TrapMode} {s s' : Startup σ ι}

/-! ### Runs -/

/-- The start stands in one of its ways after the step of a request as well, and only the request
that has set the system up makes it ready. -/
theorem Standing.proceed
    (written : ∀ text, Exec.Leads (Client.written (σ := σ) text) Heeds)
    (h : Standing start mode s) (unclaimed : start.system.claimed = false)
    (early : start.system.ready = false) (j : ι) :
    Standing start mode (s.proceed mode j) ∧
      (s.machine.system.ready = false → (s.proceed mode j).machine.system.ready = true →
        (s.proceed mode j).requests j = .ok (.returned true) ∧
        (s.proceed mode j).done = (plan start.system.config).map (j, ·) ∧
        IsSetUp start (mode j) (s.proceed mode j).machine) := by
  -- all cases but one leave the system as ready as it was
  have hstill {P : Prop} (hsame : (s.proceed mode j).machine.system.ready = s.machine.system.ready)
      (hearly : s.machine.system.ready = false)
      (hready : (s.proceed mode j).machine.system.ready = true) : P := by
    rw [hsame, hearly] at hready
    cases hready
  by_cases hj : ∃ before left notes, SettingUp start mode s j before left notes
  · obtain ⟨before, left, notes, hsetting⟩ := hj
    cases left with
    | nil =>
      obtain ⟨hstanding, hreturned, hdone, hmachine⟩ := hsetting.publishes early
      exact ⟨hstanding, fun _ _ => ⟨hreturned, hdone, .of_setting hmachine⟩⟩
    | cons step left =>
      obtain ⟨hstanding, hready⟩ := hsetting.carries_out written early
      exact ⟨hstanding, hstill (hready.trans (hsetting.flags early).2.symm)⟩
  cases hclaimed : s.machine.system.claimed with
  | true =>
    obtain ⟨hstanding, heeds, -⟩ := h.proceed_of_claimed written unclaimed early hclaimed
      ((h.cases_request j).resolve_left hj)
    exact ⟨hstanding, hstill heeds.ready⟩
  | false =>
    cases h with
    | unclaimed setting requests done =>
      have hsetting : SettingUp start mode (s.proceed mode j) j [] _ _ :=
        claims unclaimed setting requests done j
      have hready : s.machine.system.ready = false :=
        (congrArg (·.system.ready) setting).trans early
      exact ⟨.settingUp j _ _ _ hsetting, hstill ((hsetting.flags early).2.trans hready.symm)⟩
    | settingUp i before left notes h =>
      rw [(h.flags early).1] at hclaimed
      cases hclaimed
    | stopped i e claimed =>
      rw [claimed] at hclaimed
      cases hclaimed
    | ready i claimed =>
      rw [claimed] at hclaimed
      cases hclaimed

/-- A step is that of a request, or it heeds the start. -/
theorem Step.cases_heeds
    (written : ∀ text, Exec.Leads (Client.written (σ := σ) text) Heeds)
    (handlers : ∀ n e, Exec.Leads (Client.errorHandler (σ := σ) n e) Heeds)
    (traps : ∀ n, TrapExec.Leads (Client.trapHandler (σ := σ) n) Heeds) (h : Step mode s s') :
    (∃ i, s' = s.proceed mode i) ∨ ∃ m, Heeds s.machine m ∧ s' = { s with machine := m } := by
  cases h with
  | request i => exact .inl ⟨i, rfl⟩
  | call c => exact .inr ⟨_, c.perform_heeds written handlers s.machine, rfl⟩
  | trap f => exact .inr ⟨_, takeTrap_heeds written handlers traps f s.machine, rfl⟩
  | other heeds => exact .inr ⟨_, heeds s.machine, rfl⟩

/-- However the run goes, the start stands in one of its ways. -/
theorem Standing.of_reached
    (written : ∀ text, Exec.Leads (Client.written (σ := σ) text) Heeds)
    (handlers : ∀ n e, Exec.Leads (Client.errorHandler (σ := σ) n e) Heeds)
    (traps : ∀ n, TrapExec.Leads (Client.trapHandler (σ := σ) n) Heeds)
    (unclaimed : start.system.claimed = false) (early : start.system.ready = false)
    (reached : ReflTransGen (Step mode) (fresh start) s) : Standing start mode s := by
  induction reached with
  | refl => exact .unclaimed rfl (fun _ => rfl) rfl
  | tail _ hstep ih =>
    obtain ⟨i, rfl⟩ | ⟨m, heeds, rfl⟩ := hstep.cases_heeds written handlers traps
    · exact (ih.proceed written unclaimed early i).1
    · exact ih.of_heeds early heeds

/-- **One request starts the system, and it starts it once.**  Let nobody have asked for the start
of the system, and let then any number of requests, in any modes, go their steps in any order; in
between come calls of the interface, traps, and whatever else heeds the start, the handlers and the
observers of the client included.

The steps of a request make up the whole of it.  At most one request ever answers that it has
started the system, and any request answers only when the system is ready.  No step of the set-up is
carried out twice, or by two requests, and when the system is ready all of them were carried out, by
the request that says so.  Nothing but the last step of that request makes the system ready, and
then the set-up was made of the machine in the mode of that request.  Once the start is claimed, the
other requests do nothing to the machine, but for the line on the console that says so. -/
theorem one_request_starts_the_system
    (written : ∀ text, Exec.Leads (Client.written (σ := σ) text) Heeds)
    (handlers : ∀ n e, Exec.Leads (Client.errorHandler (σ := σ) n e) Heeds)
    (traps : ∀ n, TrapExec.Leads (Client.trapHandler (σ := σ) n) Heeds)
    (unclaimed : start.system.claimed = false) (early : start.system.ready = false)
    (reached : ReflTransGen (Step mode) (fresh start) s) :
    let steps := plan start.system.config
    (∀ k, StartPhase.asking.rest k = System.start (σ := σ) k ∧
      ∀ p : StartPhase, p.rest k = (p.act k >>= StartPhase.rest k : Exec σ Bool)) ∧
    (∀ i j, s.requests i = .ok (.returned true) → s.requests j = .ok (.returned true) → i = j) ∧
    (∀ i first, s.requests i = .ok (.returned first) → s.machine.system.ready = true) ∧
    steps.Nodup ∧
    (s.done = [] ∨ ∃ i before, before <+: steps ∧ s.done = before.map (i, ·)) ∧
    (s.machine.system.ready = true →
      ∃ i, s.requests i = .ok (.returned true) ∧ s.done = steps.map (i, ·)) ∧
    (∀ s', Step mode s s' → s.machine.system.ready = false → s'.machine.system.ready = true →
      ∃ i, s' = s.proceed mode i ∧ s'.requests i = .ok (.returned true) ∧
        s'.done = steps.map (i, ·) ∧ IsSetUp start (mode i) s'.machine) ∧
    (s.machine.system.claimed = true →
      ∀ i, (∀ left notes, s.requests i ≠ .ok (.settingUp left notes)) →
        (s.proceed mode i).machine = s.machine ∨
          s.requests i = .ok .refused ∧ (s.proceed mode i).machine = s.machine.shown tooLate) := by
  intro steps
  have hstanding : Standing start mode s :=
    .of_reached written handlers traps unclaimed early reached
  refine ⟨fun k => ⟨rfl, StartPhase.rest_eq k⟩, fun i j hi hj => ?_,
    fun i first hi => hstanding.ready_of_returned hi, SetUpStep.nodup_plan _, hstanding.done_eq,
    fun hready => ?_, fun s' hstep hearly hready => ?_, fun hclaimed i hi => ?_⟩
  · obtain ⟨w, -, hunique, -⟩ := hstanding.winner early (hstanding.ready_of_returned hi)
    exact (hunique i hi).trans (hunique j hj).symm
  · obtain ⟨i, hreturned, -, hdone⟩ := hstanding.winner early hready
    exact ⟨i, hreturned, hdone⟩
  · obtain ⟨i, rfl⟩ | ⟨m, heeds, rfl⟩ := hstep.cases_heeds written handlers traps
    · exact ⟨i, rfl, (hstanding.proceed written unclaimed early i).2 hearly hready⟩
    · rw [heeds.ready, hearly] at hready
      cases hready
  · have hapart := (hstanding.cases_request i).resolve_left fun hsetting => by
      obtain ⟨before, left, notes, h⟩ := hsetting
      exact hi left notes h.winner
    exact (hstanding.proceed_of_claimed written unclaimed early hclaimed hapart).2.2

/-- The requests may go their steps in any order. -/
theorem reached_foldl (mode : ι → TrapMode) (order : List ι) (s : Startup σ ι) :
    ReflTransGen (Step mode) s (order.foldl (fun s i => s.proceed mode i) s) := by
  induction order generalizing s with
  | nil => exact .refl
  | cons i order ih => exact .head (.request i) (ih (s.proceed mode i))

end Startup

/-- The modes that two requests ask for. -/
def Tenant.mode (first : Bool) : TrapMode := if first then .direct else .vectored

/-- Two requests, of which the second one was refused while the first one was setting the system up,
and the first one has just carried out the last step of the set-up. -/
def Tenant.raced : Startup Tenant Bool :=
  (true :: false :: false :: List.replicate 31 true).foldl (fun s i => s.proceed mode i)
    (Startup.fresh idle)

/-- Only the first request makes the system ready, in its mode, while the second one waits. -/
theorem tenant_starts_once :
    let next := Tenant.raced.proceed Tenant.mode true
    Tenant.raced.machine.system.ready = false ∧
    next.machine.system.ready = true ∧
    next.requests true = .ok (.returned true) ∧
    IsSetUp Tenant.idle .direct next.machine ∧
    (next.machine.system.registry.bucket .breakpoint).toList =
      System.basicProposals .breakpoint ∧
    (Tenant.raced.proceed Tenant.mode false).machine = Tenant.raced.machine := by
  intro next
  have reached : ReflTransGen (Startup.Step Tenant.mode) (Startup.fresh Tenant.idle) Tenant.raced :=
    Startup.reached_foldl _ _ _
  have early : Tenant.idle.system.ready = false := rfl
  obtain ⟨-, -, -, -, -, -, hready, hlast⟩ := Startup.one_request_starts_the_system
    (fun _ => .pure ()) (fun _ _ => .pure _) (fun _ _ _ => .of_setting rfl) rfl early reached
  have hearly : Tenant.raced.machine.system.ready = false := by decide +kernel
  have hclaimed : Tenant.raced.machine.system.claimed = true := by decide +kernel
  have hpublished : next.machine.system.ready = true := by decide +kernel
  have hwaiting : Tenant.raced.requests false = .ok .waiting := by decide +kernel
  have hbehind : next.requests false = .ok .waiting := by decide +kernel
  have hfree : Tenant.idle.system.lock.flag = false := rfl
  obtain ⟨i, hi, hreturned, -, hsetUp⟩ := hready next (.request true) hearly hpublished
  cases i with
  | false =>
    rw [hbehind] at hreturned
    cases hreturned
  | true =>
    refine ⟨hearly, hpublished, hreturned, hsetUp, hsetUp.handlers rfl hfree .breakpoint, ?_⟩
    have hlate := hlast hclaimed false fun left notes h => by
      rw [hwaiting] at h
      cases h
    refine hlate.resolve_right fun hrefused => ?_
    rw [hwaiting] at hrefused
    cases hrefused.1

end Supervisor
