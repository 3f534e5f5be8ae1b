/-
Removal in bulk and one by one.

The entries bound to a context can be removed by one request for the context, or by a request for
the description of each.  The first collects places and empties them from the last one down; the
second looks a description up each time, among slots that have moved since.

* `SlotTable.Holds.unique`, `Holds.unique` — a ledger has one registry that stands for it;
* `Holds.remove_entry` — a request by its description reaches one entry, and no other;
* `Holds.removeEach` — so what a list of requests strikes out does not depend on their order;
* `bulk_removal_is_removal_one_by_one` — the two ways agree, and how the rest is accounted for.
-/
import Supervisor.Proofs.Registry.Access

namespace Supervisor

open Tabled

/-! ### One registry for a ledger -/

/-- A table is known by its entries: they stand in front, and the slots behind them are vacant. -/
theorem SlotTable.WellFormed.ext {α : Type} [Tabled α] {n : Nat} {s t : SlotTable α n}
    (hs : s.WellFormed) (ht : t.WellFormed) (h : s.toList = t.toList) : s = t := by
  have hcount : s.count = t.count := by
    rw [← length_toList hs.count_le, ← length_toList ht.count_le, h]
  have hslots : s.slots = t.slots := by
    refine Vector.ext fun i hn => Option.some.inj ?_
    rw [← Vector.getElem?_eq_getElem hn, ← Vector.getElem?_eq_getElem hn]
    by_cases hi : i < s.count
    · have hat : s.toList[i]? = t.toList[i]? := by rw [h]
      rwa [getElem?_toList, getElem?_toList, if_pos hi, if_pos (hcount ▸ hi)] at hat
    · rw [hs.vacant_of_le i (by omega) hn, ht.vacant_of_le i (by omega) hn]
  cases s
  cases t
  congr

theorem SlotTable.Holds.unique {α : Type} [Tabled α] {n : Nat} {s t : SlotTable α n} {l : List α}
    (hs : s.Holds l) (ht : t.Holds l) : s = t :=
  hs.wellFormed.ext ht.wellFormed (hs.toList_eq.trans ht.toList_eq.symm)

namespace Registry

variable {σ : Type} {r r' : Registry} {l : TrapType → List Proposal}

theorem ext_bucket (h : ∀ t, r.bucket t = r'.bucket t) : r = r' := by
  have hindex : ∀ i : Fin 16, ∃ t ∈ TrapType.all, t.index = i := by decide
  have hbuckets : r.buckets = r'.buckets := by
    refine Vector.ext fun i hi => ?_
    obtain ⟨t, -, ht⟩ := hindex ⟨i, hi⟩
    have hi' : (t.index : Nat) = i := congrArg Fin.val ht
    have hat := h t
    simp only [bucket, Fin.getElem_fin, hi'] at hat
    exact hat
  cases r
  cases r'
  congr

/-- There is one registry that stands for given ledgers. -/
theorem Holds.unique (h : r.Holds l) (h' : r'.Holds l) : r = r' :=
  ext_bucket fun t => (h t).unique (h' t)

/-! ### What is bound to a context -/

/-- The entries bound to a context, each with its trap type. -/
def bound (r : Registry) (context : ContextId) : List (TrapType × Proposal) :=
  TrapType.all.flatMap fun t =>
    ((r.bucket t).toList.filter (·.terms.isBoundTo context)).map (t, ·)

/-- Whether a registrar may remove an entry. -/
def mayRemove (g : Registrar) (e : TrapType × Proposal) : Bool :=
  e.2.terms.permission g == .granted

theorem mem_bound {context : ContextId} {e : TrapType × Proposal} :
    e ∈ r.bound context ↔
      e.2 ∈ (r.bucket e.1).toList ∧ e.2.terms.isBoundTo context = true := by
  obtain ⟨t, p⟩ := e
  simp [bound, TrapType.mem_all]

/-- To count over the trap types is to count in one list of them all. -/
theorem countP_flatMap_all (f : TrapType → List Proposal) (test : TrapType × Proposal → Bool) :
    (TrapType.all.flatMap fun t => (f t).map (t, ·)).countP test =
      sumOverTypes fun t => (f t).countP fun p => test (t, p) := by
  rw [sumOverTypes]
  induction TrapType.all with
  | nil => rfl
  | cons t ts ih =>
    rw [List.flatMap_cons, List.countP_append, ih, List.countP_map, List.foldr_cons]
    rfl

theorem length_bound (r : Registry) (context : ContextId) :
    (r.bound context).length = r.countBound context := by
  have hcount := countP_flatMap_all
    (fun t => (r.bucket t).toList.filter (·.terms.isBoundTo context)) fun _ => true
  simp only [List.countP_true, ← List.countP_eq_length_filter] at hcount
  exact hcount

theorem Holds.nodup_bound (h : r.Holds l) (context : ContextId) : (r.bound context).Nodup := by
  refine List.nodup_flatMap.2 ⟨fun t _ => ?_, ?_⟩
  · have hentries : (r.bucket t).toList.Nodup := .of_map _ (h t).distinct_toList
    exact (hentries.filter _).map fun _ _ heq => (Prod.mk.inj heq).2
  · have htypes : TrapType.all.Nodup := by decide
    refine htypes.imp fun {s t} hst e hs ht => hst ?_
    obtain ⟨_, -, rfl⟩ := List.mem_map.1 hs
    obtain ⟨_, -, heq⟩ := List.mem_map.1 ht
    exact (congrArg Prod.fst heq).symm

/-! ### One request for the context -/

theorem Holds.removeBound_fst (h : r.Holds l) (context : ContextId) (g : Registrar) :
    (r.removeBound context g).1 = (r.bound context).countP (mayRemove g) := by
  have hterms : (fun t => ((r.bucket t).removeAll (isRemovable context g)).1) = fun t =>
      ((r.bucket t).toList.filter (·.terms.isBoundTo context)).countP
        fun p => mayRemove g (t, p) := by
    funext t
    rw [SlotTable.removeAll_fst (h t).wellFormed.count_le, List.countP_filter]
    refine List.countP_congr fun p _ => ?_
    rw [isRemovable, mayRemove, Bool.and_comm]
  rw [bound, countP_flatMap_all, ← hterms]
  rfl

/-- What stays bound are the entries that the registrar may not remove. -/
theorem Holds.bound_removeBound (h : r.Holds l) (context : ContextId) (g : Registrar) :
    (r.removeBound context g).2.bound context =
      (r.bound context).filter fun e => !mayRemove g e := by
  rw [bound, bound, List.filter_flatMap]
  congr 1
  funext t
  rw [List.filter_map, removeBound, bucket_removeMatching,
    SlotTable.toList_removeAll (h t).wellFormed.count_le, List.filter_filter, List.filter_filter]
  congr 1
  refine List.filter_congr fun p _ => ?_
  rw [isRemovable]
  cases hbound : p.terms.isBoundTo context with
  | true => simp [mayRemove]
  | false => simp

/-- What a removal leaves and what it takes make up what there was. -/
theorem Holds.removeBound_add_countBound (h : r.Holds l) (context : ContextId) (g : Registrar) :
    (r.removeBound context g).1 + (r.removeBound context g).2.countBound context =
      r.countBound context := by
  rw [← length_bound, h.bound_removeBound, ← List.countP_eq_length_filter, h.removeBound_fst,
    ← length_bound, List.length_eq_countP_add_countP (mayRemove g)]
  simp only [Bool.not_eq_true, Bool.decide_eq_false]

/-! ### One request for each entry -/

/-- Removes entries by their descriptions, one after the other; gives how many requests were
granted. -/
def removeEach (g : Registrar) : List (TrapType × Proposal) → Registry → Nat × Registry
  | [], r => (0, r)
  | (t, p) :: entries, r =>
    let removal := r.remove t (p.description.getD []) g
    let rest := removeEach g entries removal.2
    (rest.1 + if removal.1 = .ok then 1 else 0, rest.2)

theorem removeEach_cons (g : Registrar) (t : TrapType) (p : Proposal)
    (entries : List (TrapType × Proposal)) (r : Registry) :
    r.removeEach g ((t, p) :: entries) =
      let removal := r.remove t (p.description.getD []) g
      let rest := removal.2.removeEach g entries
      (rest.1 + if removal.1 = .ok then 1 else 0, rest.2) := rfl

/-- A request for the description of an entry is granted if the entry may be removed, and reaches
no other. -/
theorem Holds.remove_entry (h : r.Holds l) {t : TrapType} {p : Proposal} (hp : p ∈ l t)
    (g : Registrar) :
    ((r.remove t (p.description.getD []) g).1 = .ok ↔ mayRemove g (t, p) = true) ∧
      (r.remove t (p.description.getD []) g).2.Holds fun s =>
        (l s).filter fun q => !(decide ((s, q) = (t, p)) && mayRemove g (s, q)) := by
  obtain ⟨text, htext⟩ := Option.isSome_iff_exists.1 (isSome_description ((h t).complete p hp))
  have hdescription : p.description = some text := htext
  have hone : ∀ q ∈ l t, q.description = some text → q = p := fun q hq hd =>
    (h t).eq_of_description hq hp (hd.trans hdescription.symm)
  rw [hdescription, Option.getD_some]
  constructor
  · rw [(h.remove_status t text g).2.2.2, mayRemove, beq_iff_eq]
    constructor
    · rintro ⟨q, hq, hd, hgranted⟩
      rwa [hone q hq hd] at hgranted
    · exact fun hgranted => ⟨p, hp, hdescription, hgranted⟩
  · -- the description is the entry's own, so the ledger loses this entry or nothing
    intro s
    show SlotTable.Holds _ ((l s).filter _)
    have hstruck : ((Change.remove t text g).enter s (l s)) =
        (l s).filter fun q => !(decide ((s, q) = (t, p)) && mayRemove g (s, q)) := by
      simp only [Change.enter, Change.adds, List.append_nil]
      refine List.filter_congr fun q hq => ?_
      have hcalled : (t == s && q.description == some text) = decide ((s, q) = (t, p)) := by
        rw [Bool.eq_iff_iff, Bool.and_eq_true, beq_iff_eq, beq_iff_eq, decide_eq_true_iff]
        constructor
        · rintro ⟨rfl, hd⟩
          rw [hone q hq hd]
        · rintro ⟨⟩
          exact ⟨rfl, hdescription⟩
      rw [Change.removes, hcalled, mayRemove]
    rw [← hstruck]
    exact h.remove t text g s

/-- Requests for entries that are there, each for another one, strike out those that may be
removed, in whatever order they are made. -/
theorem Holds.removeEach (h : r.Holds l) (g : Registrar) {entries : List (TrapType × Proposal)}
    (hmem : ∀ e ∈ entries, e.2 ∈ l e.1) (hnodup : entries.Nodup) :
    (r.removeEach g entries).1 = entries.countP (mayRemove g) ∧
      (r.removeEach g entries).2.Holds fun t =>
        (l t).filter fun p => !(decide ((t, p) ∈ entries) && mayRemove g (t, p)) := by
  induction entries generalizing r l with
  | nil =>
    have hkeep (t : TrapType) :
        ((l t).filter fun p => !(decide ((t, p) ∈ []) && mayRemove g (t, p))) = l t :=
      List.filter_eq_self.2 fun p _ => by simp
    simp only [hkeep]
    exact ⟨rfl, h⟩
  | cons e entries ih =>
    obtain ⟨t, p⟩ := e
    obtain ⟨hhere, hthere⟩ : p ∈ l t ∧ ∀ e ∈ entries, e.2 ∈ l e.1 := List.forall_mem_cons.1 hmem
    obtain ⟨hnew, hnodup⟩ := List.nodup_cons.1 hnodup
    obtain ⟨hstatus, hremoved⟩ := h.remove_entry hhere g
    -- the entries that come later are still there, for each is another one
    have hmem' : ∀ e ∈ entries,
        e.2 ∈ (l e.1).filter fun q => !(decide ((e.1, q) = (t, p)) && mayRemove g (e.1, q)) := by
      intro e he
      have hne : (e.1, e.2) ≠ (t, p) := fun heq => hnew (heq ▸ he)
      simp only [List.mem_filter, decide_eq_false hne, Bool.false_and, Bool.not_false, and_true]
      exact hthere e he
    obtain ⟨hcount, hrest⟩ := ih hremoved hmem' hnodup
    rw [removeEach_cons]
    constructor
    · simp only [List.countP_cons, hcount, hstatus]
    · intro s
      have hboth : ((l s).filter fun q =>
            !(decide ((s, q) = (t, p)) && mayRemove g (s, q))).filter
            (fun q => !(decide ((s, q) ∈ entries) && mayRemove g (s, q))) =
          (l s).filter fun q => !(decide ((s, q) ∈ (t, p) :: entries) && mayRemove g (s, q)) := by
        rw [List.filter_filter]
        refine List.filter_congr fun q _ => ?_
        cases hmay : mayRemove g (s, q) with
        | true =>
          simp only [Bool.and_true, List.mem_cons, Bool.decide_or, Bool.not_or]
          exact Bool.and_comm _ _
        | false => simp only [Bool.and_false, Bool.not_false, Bool.and_self]
      have hthis := hrest s
      simp only [hboth] at hthis
      exact hthis

/-- The two ways to remove what is bound to a context are one. -/
theorem Holds.removeEach_bound (h : r.Holds l) (context : ContextId) (g : Registrar)
    {order : List (TrapType × Proposal)} (hall : order.Perm (r.bound context)) :
    r.removeEach g order = r.removeBound context g := by
  have hmem : ∀ e ∈ order, e.2 ∈ l e.1 := fun e he =>
    (h e.1).mem_toList.1 (mem_bound.1 (hall.mem_iff.1 he)).1
  obtain ⟨hcount, heach⟩ := h.removeEach g hmem (hall.nodup_iff.2 (h.nodup_bound context))
  have hbulk := h.removeMatching (isRemovable context g)
  have hstruck (t : TrapType) :
      ((l t).filter fun p => !(decide ((t, p) ∈ order) && mayRemove g (t, p))) =
        (l t).filter fun p => !isRemovable context g p := by
    refine List.filter_congr fun p hp => ?_
    have hin : decide ((t, p) ∈ order) = p.terms.isBoundTo context := by
      rw [Bool.eq_iff_iff, decide_eq_true_iff, hall.mem_iff, mem_bound]
      exact and_iff_right ((h t).mem_toList.2 hp)
    rw [hin, mayRemove, isRemovable]
  refine Prod.ext ?_ ?_
  · rw [hcount, hall.countP_eq, h.removeBound_fst]
  · simp only [hstruck] at heach
    exact heach.unique hbulk

/-! ### The calls -/

/-- With its lock at hand, a removal in bulk is made, and only traced afterwards. -/
theorem runOn_unregisterBound (context : ContextId) (g : Registrar) {m : Machine σ}
    (hfree : m.system.lock.flag = false) :
    ∃ m', Exec.runOn (System.unregisterBound context g) m =
        (.ok ⟨.ok, (m.system.registry.removeBound context g).1,
          m.system.registry.countBound context - (m.system.registry.removeBound context g).1⟩, m') ∧
      m'.system.registry = (m.system.registry.removeBound context g).2 := by
  obtain ⟨p, ⟨-, hrun⟩ | ⟨htaken, -⟩⟩ := System.runOn_locked_change
    (fun r => ((⟨.ok, (r.removeBound context g).1,
      r.countBound context - (r.removeBound context g).1⟩ : System.Removal),
      (r.removeBound context g).2)) ⟨.locked, 0, 0⟩ m
  · rw [System.unregisterBound, Exec.runOn_bind_of_ok hrun]
    split
    · obtain ⟨_, m', hnote⟩ := System.note_returns .handlerRemoved "context" context
        (Machine.theSystem.set
          { m.system with
            registry := (m.system.registry.removeBound context g).2, lock := ⟨false, noOwner⟩ }
          (Machine.thePlatform.set p m))
      refine ⟨m', ?_, (System.note_keeps_registry _ _ _).of_runOn hnote⟩
      rw [Exec.runOn_bind_of_ok hnote]
      rfl
    · exact ⟨_, rfl, rfl⟩
  · rw [hfree] at htaken
    cases htaken

/-- **Removal in bulk is removal one by one.**  On a registry as any history leaves it, a request
to remove what is bound to a context gives the registry, to the slot, and the count that come out
of one request by description for each bound entry, in any order.  With the lock of the registry
free, what the call of the system tells as removed and denied makes up what was bound before, and
the denied are those still bound.  The interface, once ready, refuses a registrar other than the
kernel's exactly if an entry bound to the context is still registered. -/
theorem bulk_removal_is_removal_one_by_one (history : List Change) (context : ContextId)
    (g : Registrar) :
    let r := run {} history
    let bulk := r.removeBound context g
    (∀ order : List (TrapType × Proposal), order.Perm (r.bound context) →
      r.removeEach g order = bulk) ∧
    ∀ m : Machine σ, m.system.registry = r → m.system.lock.flag = false →
      (∃ denied m',
        Exec.runOn (System.unregisterBound context g) m = (.ok ⟨.ok, bulk.1, denied⟩, m') ∧
        m'.system.registry = bulk.2 ∧
        bulk.1 ≤ r.countBound context ∧ bulk.1 + denied = r.countBound context ∧
        denied = m'.system.registry.countBound context) ∧
      (m.system.ready = true → g ≠ kernelRegistrar → ∃ answer m',
        Exec.runOn (Api.unregisterBound context g) m = (.ok (answer, bulk.1), m') ∧
        m'.system.registry = bulk.2 ∧
        let left := ∃ t, ∃ p ∈ (m'.system.registry.bucket t).toList, p.terms.context = some context
        (answer = .unauthorized ↔ left) ∧ (answer = .ok ↔ ¬left)) := by
  intro r bulk
  have h : r.Holds (ledger history) := holds_run history
  have hsum : bulk.1 + bulk.2.countBound context = r.countBound context :=
    h.removeBound_add_countBound context g
  refine ⟨fun order hall => h.removeEach_bound context g hall, fun m hm hfree => ?_⟩
  obtain ⟨m', hrun, hregistry⟩ := runOn_unregisterBound context g hfree
  rw [hm] at hrun hregistry
  have hdenied : r.countBound context - bulk.1 = m'.system.registry.countBound context := by
    rw [hregistry, ← hsum, Nat.add_sub_cancel_left]
  have hbound : bulk.1 ≤ r.countBound context := hsum ▸ Nat.le_add_right ..
  refine ⟨⟨r.countBound context - bulk.1, m', hrun, hregistry, hbound,
    Nat.add_sub_cancel' hbound, hdenied⟩, fun hready hg => ?_⟩
  -- the interface looks at the number of the denied only, which is zero if nothing is left
  have hleft : r.countBound context - bulk.1 > 0 ↔
      ∃ t, ∃ p ∈ (m'.system.registry.bucket t).toList, p.terms.context = some context := by
    rw [hdenied, ← length_bound, gt_iff_lt, List.length_pos_iff_exists_mem]
    constructor
    · rintro ⟨⟨t, p⟩, he⟩
      obtain ⟨hp, hbound⟩ := mem_bound.1 he
      exact ⟨t, p, hp, beq_iff_eq.1 hbound⟩
    · rintro ⟨t, p, hp, hbound⟩
      exact ⟨(t, p), mem_bound.2 ⟨hp, beq_iff_eq.2 hbound⟩⟩
  refine ⟨if r.countBound context - bulk.1 > 0 then .unauthorized else .ok, m', ?_, hregistry, ?_⟩
  · rw [Api.unregisterBound, Api.whenReady_of_ready hready, if_neg hg,
      Exec.runOn_bind_of_ok hrun]
    rfl
  · intro left
    have hleft : r.countBound context - bulk.1 > 0 ↔ left := hleft
    rw [← hleft]
    by_cases hpos : r.countBound context - bulk.1 > 0
    · simp [hpos]
    · simp [hpos]

/-- Registrations in one context, by two registrars and by the kernel, and one in another. -/
def lodgers : List Change :=
  [.add .timerInterrupt ⟨some (.client 0), some "clock", ⟨60, .user, 7, some 1⟩⟩,
    .add .timerInterrupt ⟨some (.client 1), some "watchdog", ⟨60, .system, 0, some 1⟩⟩,
    .add .timerInterrupt ⟨some (.client 2), some "alarm", ⟨50, .user, 7, some 1⟩⟩,
    .add .systemCall ⟨some (.client 3), some "calls", ⟨100, .user, 8, some 1⟩⟩,
    .add .systemCall ⟨some (.client 4), some "others", ⟨100, .user, 7, some 2⟩⟩]

def lodgersMachine : Machine Unit where
  system.ready := true
  system.registry := run {} lodgers
  clients := ()

/-- Two of the four entries bound to the context are the registrar's own.  They go in one request
as they would go one by one from the last, and the answer tells that the others are left. -/
theorem lodger_removes_its_own :
    let r := run {} lodgers
    r.removeEach 7 (r.bound 1).reverse = r.removeBound 1 7 ∧
    ∃ m', Exec.runOn (Api.unregisterBound 1 7) lodgersMachine = (.ok (.unauthorized, 2), m') ∧
      m'.system.registry.countBound 1 = 2 := by
  have hbulk : ((run {} lodgers).removeBound 1 7).1 = 2 ∧
      ((run {} lodgers).removeBound 1 7).2.countBound 1 = 2 ∧
      ((run {} lodgers).removeBound 1 7).2.bound 1 ≠ [] := by decide +kernel
  obtain ⟨hremoved, hcount, hbound⟩ := hbulk
  obtain ⟨horder, hcalls⟩ := bulk_removal_is_removal_one_by_one (σ := Unit) lodgers 1 7
  obtain ⟨-, hinterface⟩ := hcalls lodgersMachine rfl rfl
  obtain ⟨answer, m', hrun, hregistry, hrefused, -⟩ := hinterface rfl (by decide)
  refine ⟨horder _ (List.reverse_perm _), m', ?_, by rw [hregistry]; exact hcount⟩
  obtain ⟨⟨t, p⟩, he⟩ := List.exists_mem_of_ne_nil _ hbound
  obtain ⟨hp, hof⟩ := mem_bound.1 he
  have hanswer : answer = .unauthorized :=
    hrefused.2 ⟨t, p, by rw [hregistry]; exact hp, beq_iff_eq.1 hof⟩
  rw [hrun, hanswer, hremoved]

end Registry

end Supervisor
