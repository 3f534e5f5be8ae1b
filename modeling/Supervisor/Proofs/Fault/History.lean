/-
Histories of the table of error handlers.

Registrations and removals are made one after the other on the empty table.  The ledger of such a
history lists the entries that were accepted and not removed since, in the order in which they
were registered.

* `ErrorTable.holds_run` — the slots stand for the ledger;
* `ErrorTable.matching_run` — an error is offered to the entries of the ledger that want it, in the
  stable order by priority.
-/
import Supervisor.Fault.Table
import Supervisor.Proofs.Ledger

namespace Supervisor

open Tabled

namespace ErrorTable

/-- A change of the error handlers. -/
inductive Change where
  | register (p : ErrorProposal)
  | unregister (description : Text)
deriving Repr, DecidableEq

/-- The table after a change. -/
def after (t : ErrorTable) : Change → ErrorTable
  | .register p => (t.add p).2
  | .unregister description => (t.remove description).2

/-- The table after a history. -/
def run (t : ErrorTable) (changes : List Change) : ErrorTable := changes.foldl after t

/-- The ledger after a change. -/
def Change.enter (l : List ErrorProposal) : Change → List ErrorProposal
  | .register p => l ++ Ledger.accepted errorCapacity l p
  | .unregister text => l.filter fun p => p.description != some text

/-- The entries that a history accepted and did not remove since, in the order of their
registration. -/
def ledger (changes : List Change) : List ErrorProposal := changes.foldl Change.enter []

theorem run_append (t : ErrorTable) (changes : List Change) (c : Change) :
    t.run (changes ++ [c]) = (t.run changes).after c := by
  rw [run, run, List.foldl_append]
  rfl

/-- What a change makes of the slots depends on the slots only. -/
theorem slots_after {t t' : ErrorTable} (h : t.slots = t'.slots) (c : Change) :
    (t.after c).slots = (t'.after c).slots := by
  cases c with
  | register p =>
    show (t.slots.add p).2 = (t'.slots.add p).2
    rw [h]
  | unregister text =>
    show (t.remove text).2.slots = (t'.remove text).2.slots
    rw [remove, remove, h]
    split
    · exact h
    · rfl

theorem holds_after {t : ErrorTable} {l : List ErrorProposal} (h : t.slots.Holds l) (c : Change) :
    (t.after c).slots.Holds (c.enter l) := by
  cases c with
  | register p => exact h.add p
  | unregister text =>
    show (t.remove text).2.slots.Holds (l.filter fun p => p.description != some text)
    rw [remove]
    cases hi : t.slots.find? text with
    | some i => exact h.removeAt hi
    | none =>
      have hkeep : (l.filter fun p => p.description != some text) = l := by
        rw [List.filter_eq_self]
        intro p hp
        exact bne_iff_ne.2 (h.find?_eq_none_iff.1 hi p hp)
      rw [hkeep]
      exact h

/-- After any history the slots stand for the ledger of that history. -/
theorem holds_run (changes : List Change) : (run {} changes).slots.Holds (ledger changes) := by
  have hrun : ∀ (t : ErrorTable) (l : List ErrorProposal), t.slots.Holds l →
      (t.run changes).slots.Holds (changes.foldl Change.enter l) := by
    induction changes with
    | nil => exact fun _ _ h => h
    | cons c changes ih => exact fun t l h => ih (t.after c) (c.enter l) (holds_after h c)
  exact hrun {} [] SlotTable.holds_empty

end ErrorTable

/-! ### Who wants an error -/

/-- A request wants the errors that pass its two filters, where it has them. -/
def ErrorProposal.Wants (p : ErrorProposal) (e : SystemError) : Prop :=
  (∀ source, p.source = some source → source = e.source) ∧
    ∀ level, p.level = some level → level = e.level

theorem Option.all_beq_iff {α : Type} [DecidableEq α] {o : Option α} {a : α} :
    o.all (· == a) = true ↔ ∀ b, o = some b → b = a := by
  cases o <;> simp

instance (p : ErrorProposal) (e : SystemError) : Decidable (p.Wants e) :=
  decidable_of_iff (p.source.all (· == e.source) = true ∧ p.level.all (· == e.level) = true)
    (and_congr Option.all_beq_iff Option.all_beq_iff)

/-- An entry asks for what the request wanted that it was made from. -/
theorem ErrorProposal.matchesError_toEntry {p : ErrorProposal} {x : ErrorEntry}
    (h : p.toEntry = some x) (e : SystemError) : x.matchesError e = decide (p.Wants e) := by
  rw [toEntry] at h
  split at h
  · obtain rfl := Option.some.inj h
    rw [ErrorEntry.matchesError, Bool.eq_iff_iff, Bool.and_eq_true, decide_eq_true_iff]
    exact and_congr Option.all_beq_iff Option.all_beq_iff
  · cases h

/-- The entries of a ledger that want an error, in ascending priority and, among equals, in the
order of their registration. -/
def ErrorTable.wanting (e : SystemError) (ledger : List ErrorProposal) : List ErrorEntry :=
  (byPriority (ledger.filter fun p => p.Wants e)).filterMap ErrorProposal.toEntry

/-- After any history the entries that match an error are those of the ledger that want it. -/
theorem ErrorTable.matching_run {t : ErrorTable} {changes : List Change}
    (h : t.slots = (run {} changes).slots) (e : SystemError) :
    t.matching e = wanting e (ledger changes) := by
  have hfilter : ∀ l : List ErrorProposal,
      (l.filterMap ErrorProposal.toEntry).filter (·.matchesError e) =
        (l.filter fun p => p.Wants e).filterMap ErrorProposal.toEntry := by
    intro l
    induction l with
    | nil => rfl
    | cons p l ih =>
      cases hx : p.toEntry with
      | none =>
        rw [List.filterMap_cons_none hx, ih, List.filter_cons]
        split
        · rw [List.filterMap_cons_none hx]
        · rfl
      | some x =>
        rw [List.filterMap_cons_some hx, List.filter_cons, List.filter_cons,
          p.matchesError_toEntry hx e]
        split
        · rw [List.filterMap_cons_some hx, ih]
        · exact ih
  rw [matching, entries, h, (holds_run changes).toList_eq, hfilter, filter_byPriority, wanting]

end Supervisor
