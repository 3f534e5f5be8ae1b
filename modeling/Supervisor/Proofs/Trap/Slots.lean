/-
The frame slots of a machine.

The trap system and the clients have nestings of their own, and all of them share the count of traps
in progress of the machine.  What an action does to them is read off here; most are not concerned
with them at all.

* `Machine.nestings` — the nestings of a machine, with its count;
* `Composed` — between two machines all scopes that were begun were ended;
* `Underway` — some claims have been open since the start;
* `Rejoins` — a composition inside of whatever claims, and the actions that come to no more;
* `claim_of_claimSlot`, `giveBack_eq`, `entered_step`, `leave_of_giveBack` — single requests.
-/
import Supervisor.Proofs.Nesting.Scopes
import Supervisor.Proofs.Trap.Passage
import Supervisor.Trap.Guard

namespace Supervisor

open Relation (ReflTransGen)
open Nesting (bankOf)

variable {σ α ι : Type}

namespace Machine

/-- The frame slots of the trap system, and those that the clients have. -/
def slots (spare : ι → Part σ Nesting) : Option ι → Part (Machine σ) Nesting
  | none => theNesting
  | some i => theClients.comp (spare i)

/-- All nestings of a machine. -/
def nestings (spare : ι → Part σ Nesting) (m : Machine σ) : Nestings (Option ι) :=
  ⟨m.level, fun i => (slots spare i).get m⟩

end Machine

open Machine (slots nestings)

/-- Between the two machines all scopes that were begun were ended, inside of some claims. -/
def Composed [DecidableEq ι] (spare : ι → Part σ Nesting) (claims : List (Claim (Option ι)))
    (m m' : Machine σ) : Prop :=
  Scopes.Composed claims (m.nestings spare) (m'.nestings spare)

/-- The scopes that were begun since the start have been ended, but for those that hold the
claims. -/
def Underway [DecidableEq ι] (spare : ι → Part σ Nesting) (start : Machine σ)
    (claims : List (Claim (Option ι))) (m : Machine σ) : Prop :=
  ReflTransGen Scopes.Step ⟨[], start.nestings spare⟩ ⟨claims, m.nestings spare⟩

/-- All scopes that were begun were ended, inside of whatever claims. -/
def Rejoins [DecidableEq ι] (spare : ι → Part σ Nesting) (m m' : Machine σ) : Prop :=
  ∀ claims, Composed spare claims m m'

section

variable [DecidableEq ι] {spare : ι → Part σ Nesting} {m m' m₁ : Machine σ}
  {start : Machine σ} {claims : List (Claim (Option ι))}

instance : IsPreorder (Machine σ) (Rejoins spare) where
  refl _ _ := .refl
  trans _ _ _ h h' claims := (h claims).trans (h' claims)

theorem Rejoins.of_eq {m m' : Machine σ} (h : m'.nestings spare = m.nestings spare) :
    Rejoins spare m m' := by
  intro claims
  rw [Composed, h]
  exact .refl

omit [DecidableEq ι] in
theorem nestings_congr (hlevel : m'.level = m.level)
    (hnesting : m'.system.nesting = m.system.nesting) (hclients : m'.clients = m.clients) :
    m'.nestings spare = m.nestings spare := by
  have hslots : (fun i => (slots spare i).get m') = fun i => (slots spare i).get m := by
    funext i
    match i with
    | none => exact hnesting
    | some i => exact congrArg (spare i).get hclients
  rw [nestings, nestings, hlevel, hslots]

/-! ### Single requests -/

variable (apart : ∀ i j, i ≠ j → (spare i).Apart (spare j))

include apart

/-- To replace one nesting of a machine along with the count is what it is called. -/
theorem nestings_set (i : Option ι) (level : Nat) (n : Nesting) (m : Machine σ) :
    ((slots spare i).set n { m with level }).nestings spare = (m.nestings spare).put i level n := by
  have hlevel : ((slots spare i).set n { m with level }).level = level := by
    cases i <;> rfl
  have hnesting : (fun j => (slots spare j).get ((slots spare i).set n { m with level })) =
      Function.update (m.nestings spare).nesting i n := by
    funext j
    by_cases hj : j = i
    · subst hj
      rw [Part.get_set, Function.update_self]
    · rw [Function.update_of_ne hj]
      match i, j with
      | none, none => exact absurd rfl hj
      | none, some j => rfl
      | some i, none => rfl
      | some i, some j => exact apart j i (fun h => hj (congrArg some h)) n m.clients
  rw [nestings, hlevel, hnesting]
  rfl

theorem claim_of_claimSlot {i : Option ι} {core : UInt32} {answer : ContextStatus × Option Slot}
    (h : Exec.runOn (claimSlot (slots spare i) core) m = (.ok answer, m₁)) :
    (m.nestings spare).claim i core = (answer, m₁.nestings spare) := by
  have hanswer : ((m.nestings spare).claim i core).1 = answer :=
    Except.ok.inj (congrArg Prod.fst h)
  have hafter : ((m.nestings spare).claim i core).2 = m₁.nestings spare := by
    have hm₁ : (Exec.runOn (claimSlot (slots spare i) core) m).2 = m₁ := congrArg Prod.snd h
    rw [← hm₁]
    exact (nestings_set apart i _ _ m).symm
  exact Prod.ext hanswer hafter

theorem giveBack_eq (i : Option ι) (core : UInt32) (m : Machine σ) :
    (m.nestings spare).giveBack i core =
      ((m.withSlotBack (slots spare i) core).1,
        (m.withSlotBack (slots spare i) core).2.nestings spare) :=
  Prod.ext rfl (nestings_set apart i _ _ m).symm

variable (claims) in
/-- Below the limit a trap claims a slot and stores its frame there. -/
theorem entered_step (f : Frame) (h : m.level < m.system.nesting.limit) :
    Scopes.Step ⟨claims, m.nestings spare⟩
      ⟨⟨none, m.hart, m.system.nesting.depth (bankOf m.hart), some f⟩ :: claims,
        (m.entered f).nestings spare⟩ := by
  -- the request for a slot goes through the same steps
  have hclaim := Nestings.claim_of_lt (s := m.nestings spare) (i := none) h m.hart
  have hasked : m.asked.nestings spare = m.nestings spare := by
    obtain ⟨hart, next, hasked⟩ := m.asked_eq
    rw [hasked]
    exact nestings_congr rfl rfl rfl
  have hstored : (m.entered f).nestings spare =
      ((m.nestings spare).put none (m.level + 1) (m.system.nesting.withDepth (bankOf m.hart)
        (m.system.nesting.depth (bankOf m.hart) + 1))).change none
          (·.storeFrame ⟨bankOf m.hart, m.system.nesting.depth (bankOf m.hart)⟩ f) := by
    rw [Nestings.change_put, ← hasked]
    exact nestings_set apart none _ _ m.asked
  rw [hstored]
  exact .trap hclaim f

/-- A slot that can be given back is given back at the end of a trap. -/
theorem leave_of_giveBack {core : UInt32}
    (h : ((m.nestings spare).giveBack none core).1 = .ok) :
    ∃ level n, m.system.nesting.leave m.level core = some (level, n) ∧
      ({ m with level, system.nesting := n } : Machine σ).nestings spare =
        ((m.nestings spare).giveBack none core).2 := by
  have hone : (m.nestings spare).giveBack none core =
      ((m.system.nesting.giveBack m.level core).1, (m.nestings spare).put none
        (m.system.nesting.giveBack m.level core).2.1
        (m.system.nesting.giveBack m.level core).2.2) := rfl
  rw [hone, Nesting.giveBack] at h
  rw [hone, Nesting.giveBack]
  cases hleave : m.system.nesting.leave m.level core with
  | none =>
    rw [hleave] at h
    cases h
  | some left =>
    obtain ⟨level, n⟩ := left
    exact ⟨level, n, rfl, nestings_set apart none level n m⟩

omit apart

/-! ### What is not concerned with slots -/

theorem Rejoins.of_keeps {x : Exec σ α} (hx : Exec.Keeps x (nestings spare)) :
    Exec.Leads x (Rejoins spare) := Exec.Leads.of_keeps hx fun _ _ h => .of_eq h

theorem note_rejoins (kind : EventKind) (name : Text) (value : UInt64) :
    Exec.Leads (System.note (σ := σ) kind name value) (Rejoins spare) :=
  Rejoins.of_keeps (System.note_keeps (fun _ => nestings_congr rfl rfl rfl)
    (fun _ _ => nestings_congr rfl rfl rfl) kind name value)

variable [Client σ]
  (quiet : ∀ text, Exec.Leads (Client.written (σ := σ) text) (Rejoins spare))

include quiet

theorem putLine_rejoins (sink : Sink) (pieces : List Text) :
    Exec.Leads (putLine (σ := σ) sink pieces) (Rejoins spare) :=
  putLine_leads (fun _ _ => .of_eq (nestings_congr rfl rfl rfl)) quiet sink pieces

theorem announceTrap_rejoins (t : TrapType) (f : Frame) (sink : Sink) :
    Exec.Leads (announceTrap (σ := σ) t f sink) (Rejoins spare) :=
  .bind .get fun _ => .ite (putLine_rejoins quiet _ _) (.pure ())

theorem entriesFor_rejoins (t : TrapType) (sink : Sink) :
    Exec.Leads (entriesFor (σ := σ) t sink) (Rejoins spare) := by
  have hlocked : Exec.Keeps (System.locked (σ := σ)
      (return some ((← Machine.theRegistry.read).snapshot t bucketCapacity)) (return none))
      (nestings spare) :=
    System.locked_keeps (fun _ => nestings_congr rfl rfl rfl)
      (fun _ _ => nestings_congr rfl rfl rfl)
      (.bind (.read _) fun _ => .pure _) (.pure none)
  refine .bind (Rejoins.of_keeps hlocked) fun found => ?_
  cases found with
  | none => exact .bind (putLine_rejoins quiet _ _) fun _ => .pure []
  | some entries => exact .pure entries

/-- The last resort is not concerned with slots. -/
theorem fallback_rejoins (t : TrapType) :
    TrapExec.Leads (fallback (σ := σ) t) (Rejoins spare) := by
  have hsay (sink : Sink) (pieces : List Text) :
      TrapExec.Leads (say (σ := σ) sink pieces) (Rejoins spare) :=
    .onMachine (putLine_rejoins quiet sink pieces)
  have hskip : TrapExec.Leads (skipInstruction (σ := σ)) (Rejoins spare) := fun _ m => .of_eq rfl
  have hmodify {g : Machine σ → Machine σ} (hg : ∀ m, (g m).nestings spare = m.nestings spare) :
      TrapExec.Leads (onMachine (modify g)) (Rejoins spare) := fun _ m => .of_eq (hg m)
  refine .bind (fun _ m => .of_eq rfl) fun f => .bind (fun _ m => .of_eq rfl) fun sink => ?_
  cases t with
  | systemCall => exact .bind (hsay _ _) fun _ => hskip
  | breakpoint => exact .bind (hsay _ _) fun _ => hskip
  | softwareInterrupt => exact hmodify fun _ => nestings_congr rfl rfl rfl
  | timerInterrupt =>
    refine .bind (fun _ m => .of_eq rfl) fun reachable => ?_
    cases reachable with
    | false => exact hsay _ _
    | true => exact .bind (hmodify fun _ => nestings_congr rfl rfl rfl) fun _ => hsay _ _
  | _ => exact hsay _ _

end

end Supervisor
