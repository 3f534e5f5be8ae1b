/-
Ownership of registered handlers.

An entry stays as it is until somebody takes it away who may: the kernel if it stands under system
protection, its own registrar if it stands under user protection, or whoever ends its context or
empties the registry (`TakesAway`).

* `mem_enter_iff` — one change takes away exactly those entries;
* `Holds.remove_status` — how a removal by description ends;
* `filter_guarded_foldl` — calls in the name of one registrar leave the entries of the others alone;
* `entries_stay_with_their_owners` — all of this over whole histories.
-/
import Supervisor.Proofs.Registry.History

namespace Supervisor

open Tabled

/-- Whether a registrar may take an entry away that was registered on these terms. -/
def Terms.YieldsTo (t : Terms) (g : Registrar) : Prop :=
  match t.protection with
  | .system => g = kernelRegistrar
  | .user => g = t.registrar

theorem Terms.permission_eq_granted_iff {t : Terms} {g : Registrar} :
    t.permission g = .granted ↔ t.YieldsTo g := by
  rw [permission, YieldsTo]
  split <;> split <;> simp [*]

theorem Terms.permission_eq_protectedEntry_iff {t : Terms} {g : Registrar} :
    t.permission g = .protectedEntry ↔ t.protection = .system ∧ g ≠ kernelRegistrar := by
  rw [permission]
  split <;> split <;> simp [*]

theorem Terms.permission_eq_foreignEntry_iff {t : Terms} {g : Registrar} :
    t.permission g = .foreignEntry ↔ t.protection = .user ∧ g ≠ t.registrar := by
  rw [permission]
  split <;> split <;> simp [*]

namespace Registry

/-- The changes that take an entry of type `t` away. -/
inductive TakesAway (t : TrapType) (p : Proposal) : Change → Prop
  | remove {text : Text} {g : Registrar} :
    p.description = some text → p.terms.YieldsTo g → TakesAway t p (.remove t text g)
  | removeBound {context : ContextId} {g : Registrar} :
    p.terms.context = some context → p.terms.YieldsTo g → TakesAway t p (.removeBound context g)
  | purge {context : ContextId} : p.terms.context = some context → TakesAway t p (.purge context)
  | clear : TakesAway t p .clear

/-- Whether a change is made in the name of a registrar. -/
def Change.Carries (g : Registrar) : Change → Prop
  | .add _ p => p.terms.registrar = g
  | .remove _ _ h => h = g
  | .removeBound _ h => h = g
  | .purge _ => False
  | .clear => False

/-- Whether an entry is safe from a registrar other than the kernel. -/
def guarded (g : Registrar) (p : Proposal) : Bool :=
  p.terms.protection == .system || p.terms.registrar != g

/-! ### One change -/

theorem removes_iff {t : TrapType} {p : Proposal} {c : Change} :
    c.removes t p = true ↔ TakesAway t p c := by
  constructor
  · intro h
    cases c with
    | add s q => cases h
    | remove s text g =>
      simp only [Change.removes, Bool.and_eq_true, beq_iff_eq] at h
      obtain ⟨⟨rfl, hd⟩, hg⟩ := h
      exact .remove hd (Terms.permission_eq_granted_iff.1 hg)
    | removeBound context g =>
      simp only [Change.removes, isRemovable, Terms.isBoundTo, Bool.and_eq_true, beq_iff_eq] at h
      exact .removeBound h.1 (Terms.permission_eq_granted_iff.1 h.2)
    | purge context =>
      simp only [Change.removes, Terms.isBoundTo, beq_iff_eq] at h
      exact .purge h
    | clear => exact .clear
  · intro h
    cases h with
    | remove hd hg => simp [Change.removes, hd, Terms.permission_eq_granted_iff.2 hg]
    | removeBound hc hg =>
      simp [Change.removes, isRemovable, Terms.isBoundTo, hc, Terms.permission_eq_granted_iff.2 hg]
    | purge hc => simp [Change.removes, Terms.isBoundTo, hc]
    | clear => rfl

variable {l : List Proposal} {t : TrapType} {p : Proposal}

theorem mem_adds_iff {c : Change} :
    p ∈ c.adds t l ↔ c = .add t p ∧ Ledger.status bucketCapacity l p = .ok := by
  cases c with
  | add s q =>
    rw [Change.adds, Ledger.accepted]
    constructor
    · intro h
      split at h
      · rename_i hst
        split at h
        · rename_i hok
          rw [List.mem_singleton.1 h, hst]
          exact ⟨rfl, hok⟩
        · cases h
      · cases h
    · rintro ⟨heq, hok⟩
      cases heq
      rw [if_pos rfl, if_pos hok]
      exact List.mem_singleton_self p
  | remove | removeBound | purge | clear => simp [Change.adds]

/-- An entry of the ledger is taken away by exactly the changes that may. -/
theorem mem_enter_iff (hp : p ∈ l) (c : Change) : p ∈ c.enter t l ↔ ¬TakesAway t p c := by
  rw [← removes_iff, Change.enter, List.mem_append, List.mem_filter]
  constructor
  · rintro (⟨-, hkept⟩ | hadded) htaken
    · rw [htaken] at hkept
      cases hkept
    · rw [(mem_adds_iff.1 hadded).1] at htaken
      cases htaken
  · intro h
    exact .inl ⟨hp, by simpa using h⟩

/-- An entry of the ledger that no change takes away stays. -/
theorem mem_foldl_enter {later : List Change} (hp : p ∈ l)
    (h : ∀ c ∈ later, ¬TakesAway t p c) : p ∈ later.foldl (Change.enter t) l := by
  induction later generalizing l with
  | nil => exact hp
  | cons c later ih =>
    obtain ⟨hc, hlater⟩ := List.forall_mem_cons.1 h
    exact ih ((mem_enter_iff hp c).2 hc) hlater

variable {r : Registry} {ls : TrapType → List Proposal}

/-- How a removal by description ends, as the ledger tells. -/
theorem Holds.remove_status (h : r.Holds ls) (t : TrapType) (text : Text) (g : Registrar) :
    ((r.remove t text g).1 = .notFound ↔ ∀ p ∈ ls t, p.description ≠ some text) ∧
    ((r.remove t text g).1 = .protectedEntry ↔ ∃ p ∈ ls t, p.description = some text ∧
      p.terms.permission g = .protectedEntry) ∧
    ((r.remove t text g).1 = .foreignEntry ↔ ∃ p ∈ ls t, p.description = some text ∧
      p.terms.permission g = .foreignEntry) ∧
    ((r.remove t text g).1 = .ok ↔ ∃ p ∈ ls t, p.description = some text ∧
      p.terms.permission g = .granted) := by
  rcases remove_cases h t text g with ⟨heq, hnone⟩ | ⟨p, hp, hd, hcase⟩
  · have hno : ∀ x, ¬∃ p ∈ ls t, p.description = some text ∧ p.terms.permission g = x :=
      fun x ⟨p, hp, hd, _⟩ => hnone p hp hd
    rw [heq]
    exact ⟨by simpa using hnone, by simpa using hno _, by simpa using hno _, by simpa using hno _⟩
  · have hsome : ¬∀ q ∈ ls t, q.description ≠ some text := fun hnone => hnone p hp hd
    -- the entry is the only one of its description, so its permission decides
    have hperm : ∀ x, (∃ q ∈ ls t, q.description = some text ∧ q.terms.permission g = x) ↔
        p.terms.permission g = x := by
      intro x
      constructor
      · rintro ⟨q, hq, hdq, hx⟩
        rwa [(h t).eq_of_description hp hq (hd.trans hdq.symm)]
      · exact fun hx => ⟨p, hp, hd, hx⟩
    rw [hperm, hperm, hperm]
    rcases hcase with ⟨hx, heq⟩ | ⟨hx, heq⟩ | ⟨hx, b, -, heq⟩
    all_goals
      rw [heq, hx]
      simpa using hsome

/-! ### Calls in the name of one registrar -/

theorem not_takesAway_of_carries {g : Registrar} (hg : g ≠ kernelRegistrar) {c : Change}
    (hc : c.Carries g) (hp : guarded g p = true) : ¬TakesAway t p c := by
  -- a guarded entry yields to the kernel or to another registrar, and the call is by neither
  have hyield : ¬p.terms.YieldsTo g := by
    rw [guarded, Bool.or_eq_true, beq_iff_eq, bne_iff_ne] at hp
    rw [Terms.YieldsTo]
    intro hy
    split at hy
    · exact hg hy
    · rename_i huser
      rcases hp with hsys | hne
      · rw [huser] at hsys
        cases hsys
      · exact hne hy.symm
  intro h
  cases h with
  | remove _ hy => exact hyield (hc ▸ hy)
  | removeBound _ hy => exact hyield (hc ▸ hy)
  | purge _ => exact hc
  | clear => exact hc

/-- Calls that carry one registrar only add to the guarded entries, and only at the end. -/
theorem filter_guarded_foldl {g : Registrar} (hg : g ≠ kernelRegistrar) {calls : List Change}
    (hcalls : ∀ c ∈ calls, c.Carries g) (test : Proposal → Bool)
    (htest : ∀ p, test p = true → guarded g p = true) :
    ∃ added, (calls.foldl (Change.enter t) l).filter test = l.filter test ++ added ∧
      ∀ p ∈ added, test p = true ∧ ∃ s, .add s p ∈ calls := by
  induction calls generalizing l with
  | nil => exact ⟨[], by simp, by simp⟩
  | cons c calls ih =>
    obtain ⟨hc, hrest⟩ := List.forall_mem_cons.1 hcalls
    obtain ⟨added, heq, hadded⟩ := ih hrest (l := c.enter t l)
    -- what the call removes does not pass the test anyway
    have hkeep : (l.filter fun p => !c.removes t p).filter test = l.filter test := by
      rw [List.filter_filter]
      refine List.filter_congr fun p _ => ?_
      cases hp : test p with
      | false => rfl
      | true =>
        have hno := not_takesAway_of_carries (t := t) hg hc (htest p hp)
        rw [← removes_iff] at hno
        simpa using hno
    refine ⟨(c.adds t l).filter test ++ added, ?_, ?_⟩
    · rw [List.foldl_cons, heq, Change.enter, List.filter_append, hkeep, List.append_assoc]
    · intro p hp
      rcases List.mem_append.1 hp with hp | hp
      · obtain ⟨hp, htp⟩ := List.mem_filter.1 hp
        refine ⟨htp, ?_⟩
        exact ⟨t, (mem_adds_iff.1 hp).1 ▸ List.mem_cons_self⟩
      · obtain ⟨htp, s, hs⟩ := hadded p hp
        exact ⟨htp, s, List.mem_cons_of_mem _ hs⟩

/-! ### Whole histories -/

/-- An entry that was accepted is in the ledger. -/
theorem mem_ledger_of_added {before : List Change} (h : ((run {} before).add t p).1 = .ok) :
    p ∈ ledger (before ++ [.add t p]) t := by
  rw [add_eq] at h
  have hok : Ledger.status bucketCapacity (ledger before t) p = .ok :=
    ((holds_run before t).add_fst p).symm.trans h
  rw [ledger_append]
  exact List.mem_append_right _ (mem_adds_iff.2 ⟨rfl, hok⟩)

/-- A removal that went well leaves nothing of its description behind. -/
theorem Holds.remove_twice (h : r.Holds ls) {text : Text} {g : Registrar}
    (hok : (r.remove t text g).1 = .ok) :
    ((r.remove t text g).2.remove t text g).1 = .notFound := by
  obtain ⟨p, hp, hd, hperm⟩ := (h.remove_status t text g).2.2.2.1 hok
  refine ((h.remove t text g).remove_status t text g).1.2 fun q hq hdq => ?_
  rcases List.mem_append.1 hq with hq | hq
  · obtain ⟨hq, hkept⟩ := List.mem_filter.1 hq
    obtain rfl := (h t).eq_of_description hp hq (hd.trans hdq.symm)
    simp [Change.removes, hd, hperm] at hkept
  · cases hq

/-- **Entries stay with their owners.**  An entry that was accepted stays in its bucket as it is
until a change takes it away that may, and such a change does so.  A removal by description fails
exactly for want of the entry or of the right to it, and then changes nothing; it succeeds once.
Calls that carry one registrar other than the kernel leave the entries of all others as they were,
in their order, and take nothing away that is under system protection. -/
theorem entries_stay_with_their_owners :
    (∀ before t p, ((run {} before).add t p).1 = .ok →
      ∀ later, (∀ c ∈ later, ¬TakesAway t p c) →
        let r := run {} (before ++ .add t p :: later)
        p ∈ (r.bucket t).toList ∧ ∀ c, p ∈ ((r.after c).bucket t).toList ↔ ¬TakesAway t p c) ∧
    (∀ changes t text g,
      let r := run {} changes
      let found (p : Proposal) := p ∈ (r.bucket t).toList ∧ p.description = some text
      ((r.remove t text g).1 = .notFound ↔ ¬∃ p, found p) ∧
      ((r.remove t text g).1 = .protectedEntry ↔
        ∃ p, found p ∧ p.terms.protection = .system ∧ g ≠ kernelRegistrar) ∧
      ((r.remove t text g).1 = .foreignEntry ↔
        ∃ p, found p ∧ p.terms.protection = .user ∧ g ≠ p.terms.registrar) ∧
      ((r.remove t text g).1 = .ok ↔ ∃ p, found p ∧ p.terms.YieldsTo g) ∧
      ((r.remove t text g).1 ≠ .ok → (r.remove t text g).2 = r) ∧
      ((r.remove t text g).1 = .ok → ((r.remove t text g).2.remove t text g).1 = .notFound)) ∧
    ∀ changes calls g, g ≠ kernelRegistrar → (∀ c ∈ calls, Change.Carries g c) → ∀ t,
      let old := ((run {} changes).bucket t).toList
      let new := ((run {} (changes ++ calls)).bucket t).toList
      new.filter (·.terms.registrar != g) = old.filter (·.terms.registrar != g) ∧
      (old.filter (guarded g)).Sublist (new.filter (guarded g)) ∧
      ((∀ s p, .add s p ∈ calls → p.terms.protection = .user) →
        new.filter (guarded g) = old.filter (guarded g)) := by
  refine ⟨?_, ?_, ?_⟩
  · -- an entry stays in the ledger until a change takes it away, and so it does in its bucket
    intro before t p hok later hlater r
    have h : r.Holds (ledger (before ++ .add t p :: later)) := holds_run _
    have hmem : p ∈ ledger (before ++ .add t p :: later) t := by
      have heq : before ++ .add t p :: later = (before ++ [.add t p]) ++ later := by simp
      rw [heq, ledger_append]
      exact mem_foldl_enter (mem_ledger_of_added hok) hlater
    refine ⟨(h t).mem_toList.2 hmem, fun c => ?_⟩
    rw [(h.after c t).mem_toList]
    exact mem_enter_iff hmem c
  · -- how a removal ends is told by the one entry of the ledger that goes by the description
    intro changes t text g r found
    have h : r.Holds (ledger changes) := holds_run changes
    obtain ⟨hnone, hprot, hforeign, hok⟩ := h.remove_status t text g
    simp only [Terms.permission_eq_protectedEntry_iff] at hprot
    simp only [Terms.permission_eq_foreignEntry_iff] at hforeign
    simp only [Terms.permission_eq_granted_iff] at hok
    have hfound : ∀ q : Proposal → Prop, (∃ p, found p ∧ q p) ↔
        ∃ p ∈ ledger changes t, p.description = some text ∧ q p := by
      intro q
      simp only [found, (h t).mem_toList, and_assoc]
    refine ⟨?_, hprot.trans (hfound _).symm, hforeign.trans (hfound _).symm,
      hok.trans (hfound _).symm, remove_of_refused, h.remove_twice⟩
    rw [hnone]
    simp only [found, (h t).mem_toList]
    push Not
    rfl
  · intro changes calls g hg hcalls t old new
    have hold : old = byPriority (ledger changes t) := (holds_run changes t).toList_eq
    have hnew : new = byPriority (calls.foldl (Change.enter t) (ledger changes t)) := by
      rw [← ledger_append]
      exact (holds_run (changes ++ calls) t).toList_eq
    have hguard := filter_guarded_foldl (t := t) (l := ledger changes t) hg hcalls
    rw [hold, hnew]
    simp only [filter_byPriority]
    refine ⟨?_, ?_, ?_⟩
    · -- what the calls register is the registrar's own
      obtain ⟨added, heq, hadded⟩ := hguard (·.terms.registrar != g)
        fun p hp => by rw [guarded, hp, Bool.or_true]
      have hnil : added = [] := by
        refine List.eq_nil_iff_forall_not_mem.2 fun p hp => ?_
        obtain ⟨hne, s, hs⟩ := hadded p hp
        exact bne_iff_ne.1 hne (hcalls _ hs)
      rw [heq, hnil, List.append_nil]
    · -- entries under system protection may have been added in between
      obtain ⟨added, heq, -⟩ := hguard (guarded g) fun p hp => hp
      rw [heq]
      exact byPriority_sublist_append _ _
    · intro huser
      obtain ⟨added, heq, hadded⟩ := hguard (guarded g) fun p hp => hp
      have hnil : added = [] := by
        refine List.eq_nil_iff_forall_not_mem.2 fun p hp => ?_
        obtain ⟨hguarded, s, hs⟩ := hadded p hp
        have hreg : p.terms.registrar = g := hcalls _ hs
        rw [guarded, huser s p hs, hreg] at hguarded
        simp at hguarded
      rw [heq, hnil, List.append_nil]

end Registry

end Supervisor
