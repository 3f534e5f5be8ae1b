/-
Histories of the registry.

A history is a list of changes, made one after the other on the empty registry.  Its ledger says
for each trap type which entries were accepted and have not been removed since, in the order in
which they were registered; it is computed without the registry.  `holds_run` ties the two
together, and `run_refines_ledger` spells out what that means for the slots:

* the slots in use hold the stable sort of the ledger, and the others are vacant;
* no type has more entries than slots, and no two entries of a type have one description;
* a request succeeds exactly if it is complete, there is room, and its description is new;
* a change of one type leaves the other types alone.
-/
import Supervisor.Proofs.Ledger
import Supervisor.Registry

namespace Supervisor

open Tabled

namespace Registry

/-- A change of the registry. -/
inductive Change where
  | add (t : TrapType) (p : Proposal)
  | remove (t : TrapType) (description : Text) (registrar : Registrar)
  | removeBound (context : ContextId) (registrar : Registrar)
  | purge (context : ContextId)
  | clear
deriving Repr, DecidableEq

/-- The registry after a change. -/
def after (r : Registry) : Change → Registry
  | .add t p => (r.add t p).2
  | .remove t description registrar => (r.remove t description registrar).2
  | .removeBound context registrar => (r.removeBound context registrar).2
  | .purge context => (r.purge context).2
  | .clear => r.clear

/-- The registry after a history. -/
def run (r : Registry) (changes : List Change) : Registry := changes.foldl after r

/-- Whether a change asks for the removal of an entry of type `t`, and may. -/
def Change.removes (t : TrapType) (p : Proposal) : Change → Bool
  | .add _ _ => false
  | .remove s text registrar =>
    s == t && p.description == some text && p.terms.permission registrar == .granted
  | .removeBound context registrar => isRemovable context registrar p
  | .purge context => p.terms.isBoundTo context
  | .clear => true

/-- What a change adds to the ledger `l` of type `t`. -/
def Change.adds (t : TrapType) (l : List Proposal) : Change → List Proposal
  | .add s p => if s = t then Ledger.accepted bucketCapacity l p else []
  | _ => []

/-- The ledger of type `t` after a change. -/
def Change.enter (t : TrapType) (l : List Proposal) (c : Change) : List Proposal :=
  (l.filter fun p => !c.removes t p) ++ c.adds t l

/-- The entries of type `t` that a history accepted and did not remove since, in the order of
their registration. -/
def ledger (changes : List Change) (t : TrapType) : List Proposal :=
  changes.foldl (Change.enter t) []

theorem ledger_append (xs ys : List Change) (t : TrapType) :
    ledger (xs ++ ys) t = ys.foldl (Change.enter t) (ledger xs t) := List.foldl_append ..

/-- The registry stands for a ledger of each trap type. -/
def Holds (r : Registry) (l : TrapType → List Proposal) : Prop := ∀ t, (r.bucket t).Holds (l t)

/-! ### One change -/

/-- The second look at the room never refuses: a request goes the way of any table. -/
theorem add_eq (r : Registry) (t : TrapType) (p : Proposal) :
    r.add t p = (((r.bucket t).add p).1, r.setBucket t ((r.bucket t).add p).2) := by
  have hself : r.setBucket t (r.bucket t) = r := by simp [setBucket, bucket]
  rw [add, SlotTable.add]
  by_cases hc : (!complete p) = true
  · rw [if_pos hc, if_pos hc, hself]
  · rw [if_neg hc, if_neg hc]
    by_cases hroom : bucketCapacity ≤ (r.bucket t).count
    · rw [if_pos hroom, if_pos hroom, hself]
    · rw [if_neg hroom, if_neg hroom]
      split
      · rw [hself]
      · rw [if_neg (by omega)]

theorem bucket_add (r : Registry) (s t : TrapType) (p : Proposal) :
    (r.add s p).2.bucket t = if s = t then ((r.bucket t).add p).2 else r.bucket t := by
  rw [add_eq, bucket_setBucket]
  split
  · rename_i h
    rw [h]
  · rfl

variable {r : Registry} {l : TrapType → List Proposal}

theorem Holds.add (h : r.Holds l) (s : TrapType) (p : Proposal) :
    (r.add s p).2.Holds fun t => (Change.add s p).enter t (l t) := by
  intro t
  have hkeep : ((l t).filter fun q => !(Change.add s p).removes t q) = l t :=
    List.filter_eq_self.2 fun _ _ => rfl
  show SlotTable.Holds _ ((Change.add s p).enter t (l t))
  rw [Change.enter, hkeep, Change.adds, bucket_add]
  split
  · exact (h t).add p
  · rw [List.append_nil]
    exact h t

/-- What a removal by description does, as the ledger tells. -/
theorem remove_cases (h : r.Holds l) (t : TrapType) (text : Text) (g : Registrar) :
    (r.remove t text g = (.notFound, r) ∧ ∀ p ∈ l t, p.description ≠ some text) ∨
    ∃ p ∈ l t, p.description = some text ∧
      ((p.terms.permission g = .protectedEntry ∧ r.remove t text g = (.protectedEntry, r)) ∨
       (p.terms.permission g = .foreignEntry ∧ r.remove t text g = (.foreignEntry, r)) ∨
       (p.terms.permission g = .granted ∧ ∃ b : Bucket,
          b.Holds ((l t).filter fun q => q.description != some text) ∧
          r.remove t text g = (.ok, r.setBucket t b))) := by
  cases hi : (r.bucket t).find? text with
  | none =>
    refine .inl ⟨?_, (h t).find?_eq_none_iff.1 hi⟩
    simp only [remove, hi]
  | some i =>
    obtain ⟨-, hmem, hdesc⟩ := (h t).of_find? hi
    refine .inr ⟨_, hmem, hdesc, ?_⟩
    cases hperm : ((r.bucket t).slot i).terms.permission g with
    | granted =>
      refine .inr (.inr ⟨rfl, _, (h t).removeAt hi, ?_⟩)
      simp only [remove, hi, hperm]
    | protectedEntry =>
      refine .inl ⟨rfl, ?_⟩
      simp only [remove, hi, hperm]
    | foreignEntry =>
      refine .inr (.inl ⟨rfl, ?_⟩)
      simp only [remove, hi, hperm]

theorem Holds.remove (h : r.Holds l) (s : TrapType) (text : Text) (g : Registrar) :
    (r.remove s text g).2.Holds fun t => (Change.remove s text g).enter t (l t) := by
  intro t
  simp only [Change.enter, Change.adds, List.append_nil]
  -- a refusal strikes nothing out: the entry that is asked for is missing, or guarded
  have hkeep : (∀ p ∈ l s, p.description = some text → p.terms.permission g ≠ .granted) →
      ((l t).filter fun q => !(Change.remove s text g).removes t q) = l t := by
    intro hno
    refine List.filter_eq_self.2 fun q hq => ?_
    simp only [Change.removes, Bool.not_eq_true', Bool.and_eq_false_iff, beq_eq_false_iff_ne]
    by_cases hst : s = t
    · by_cases hd : q.description = some text
      · exact .inr (hno q (hst ▸ hq) hd)
      · exact .inl (.inr hd)
    · exact .inl (.inl hst)
  rcases remove_cases h s text g with ⟨heq, hnone⟩ | ⟨p, hp, hd, hcase⟩
  · rw [heq, hkeep fun q hq hd _ => hnone q hq hd]
    exact h t
  · have hone : ∀ q ∈ l s, q.description = some text → q = p := fun q hq hdq =>
      (h s).eq_of_description hq hp (hdq.trans hd.symm)
    rcases hcase with ⟨hperm, heq⟩ | ⟨hperm, heq⟩ | ⟨hperm, b, hb, heq⟩
    · rw [heq, hkeep fun q hq hdq => by rw [hone q hq hdq, hperm]; exact fun e => nomatch e]
      exact h t
    · rw [heq, hkeep fun q hq hdq => by rw [hone q hq hdq, hperm]; exact fun e => nomatch e]
      exact h t
    · -- the removal is granted: this type loses one description, the others lose nothing
      rw [heq, bucket_setBucket]
      split
      · rename_i hst
        subst hst
        have hstrike : ((l s).filter fun q => !(Change.remove s text g).removes s q) =
            (l s).filter fun q => q.description != some text := by
          refine List.filter_congr fun q hq => ?_
          by_cases hdq : q.description = some text
          · obtain rfl := hone q hq hdq
            simp [Change.removes, hdq, hperm]
          · simp [Change.removes, hdq, bne]
        rw [hstrike]
        exact hb
      · rename_i hst
        have hrest : ((l t).filter fun q => !(Change.remove s text g).removes t q) = l t :=
          List.filter_eq_self.2 fun q _ => by simp [Change.removes, hst]
        rw [hrest]
        exact h t

theorem Holds.removeMatching (h : r.Holds l) (test : Proposal → Bool) :
    (r.removeMatching test).2.Holds fun t => (l t).filter fun p => !test p := by
  intro t
  rw [bucket_removeMatching]
  exact (h t).removeAll test

/-- A change of the registry is the plain change of its ledgers. -/
theorem Holds.after (h : r.Holds l) (c : Change) : (r.after c).Holds fun t => c.enter t (l t) := by
  cases c with
  | add s p => exact h.add s p
  | remove s text g => exact h.remove s text g
  | removeBound context g =>
    intro t
    simp only [Change.enter, Change.adds, List.append_nil]
    exact h.removeMatching _ t
  | purge context =>
    intro t
    simp only [Change.enter, Change.adds, List.append_nil]
    exact h.removeMatching _ t
  | clear =>
    intro t
    have hnone : ((l t).filter fun p => !Change.clear.removes t p) = [] :=
      List.filter_eq_nil_iff.2 fun p _ => by simp [Change.removes]
    simp only [Change.enter, Change.adds, List.append_nil, hnone, Registry.after, bucket_clear]
    exact SlotTable.holds_empty

/-! ### Histories -/

/-- Change by change, the registry and its ledgers stay together. -/
theorem Holds.run (h : r.Holds l) (changes : List Change) :
    (r.run changes).Holds fun t => changes.foldl (Change.enter t) (l t) := by
  induction changes generalizing r l with
  | nil => exact h
  | cons c changes ih => exact ih (h.after c)

/-- After any history the registry stands for the ledger of that history. -/
theorem holds_run (changes : List Change) : (run {} changes).Holds (ledger changes) := by
  have h : Holds {} fun _ => [] := by
    intro t
    rw [bucket_empty]
    exact SlotTable.holds_empty
  exact h.run changes

/-- A change of one type leaves the slots of the other types alone. -/
theorem bucket_remove_of_ne {s t : TrapType} (hst : s ≠ t) (r : Registry) (text : Text)
    (g : Registrar) : (r.remove s text g).2.bucket t = r.bucket t := by
  rw [remove]
  split
  · rfl
  · split
    · rw [bucket_setBucket, if_neg hst]
    · rfl
    · rfl

/-- A request succeeds exactly if it is complete, there is room, and its description is new. -/
theorem Holds.add_eq_ok_iff (h : r.Holds l) (t : TrapType) (p : Proposal) :
    (r.add t p).1 = .ok ↔
      p.handler.isSome ∧ p.description.isSome ∧ (r.bucket t).count < bucketCapacity ∧
        ∀ q ∈ (r.bucket t).toList, q.description ≠ p.description := by
  rw [add_eq]
  show ((r.bucket t).add p).1 = .ok ↔ _
  rw [(h t).add_fst, Ledger.status_eq_ok_iff, (h t).count_eq]
  have hcomplete : complete p = true ↔ p.handler.isSome = true ∧ p.description.isSome = true :=
    Bool.and_eq_true_iff
  rw [hcomplete, and_assoc]
  simp only [(h t).mem_toList]
  exact Iff.rfl

/-- **The registry refines its ledger.**  After any history, for every trap type, the slots in use
are the stable sort of the entries that were accepted and not removed since; the other slots are
vacant, nothing is incomplete or described twice, a registration succeeds exactly if it can, and
neither a refusal nor a change of another type leaves a mark. -/
theorem run_refines_ledger (changes : List Change) (t : TrapType) :
    let r := run {} changes
    let b := r.bucket t
    b.toList = byPriority (ledger changes t) ∧
    b.count ≤ bucketCapacity ∧
    (∀ p ∈ b.toList, p.handler.isSome ∧ p.description.isSome) ∧
    (b.toList.map Proposal.description).Nodup ∧
    (∀ i, b.count ≤ i → i < bucketCapacity → b.slots[i]? = some ⟨none, some [], {}⟩) ∧
    (∀ s, s ≠ t → (∀ p, (r.add s p).2.bucket t = b) ∧
      ∀ text g, (r.remove s text g).2.bucket t = b) ∧
    ∀ p, ((r.add t p).1 = .ok ↔ p.handler.isSome ∧ p.description.isSome ∧
        b.count < bucketCapacity ∧ ∀ q ∈ b.toList, q.description ≠ p.description) ∧
      ((r.add t p).1 ≠ .ok → (r.add t p).2 = r) := by
  intro r b
  have h : r.Holds (ledger changes) := holds_run changes
  refine ⟨(h t).toList_eq, (h t).wellFormed.count_le, ?_, (h t).distinct_toList,
    (h t).wellFormed.vacant_of_le, ?_, ?_⟩
  · intro p hp
    exact Bool.and_eq_true_iff.1 ((h t).complete p ((h t).mem_toList.1 hp))
  · intro s hst
    refine ⟨fun p => ?_, bucket_remove_of_ne hst r⟩
    rw [bucket_add, if_neg hst]
  · intro p
    exact ⟨h.add_eq_ok_iff t p, add_of_refused⟩

end Registry

end Supervisor
