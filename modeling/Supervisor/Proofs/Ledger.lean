/-
Tables and their ledgers.

The ledger of a table lists the entries that were taken in and have not gone since, in the order
in which they came.  It knows nothing of slots and priorities.  `SlotTable.Holds t l` says that
the slots of `t` stand for the ledger `l`: they hold its stable sort from the front, and nothing
behind it.  Every change of a table is the plain change of its ledger:

* `Holds.add` — an entry that is accepted is written at the end;
* `Holds.removeAll` — the entries that pass a test are struck out;
* `Holds.removeAt` — so is the one entry that goes by a description.
-/
import Supervisor.Proofs.Order
import Mathlib.Data.List.Nodup

namespace Supervisor

open Tabled

variable {α : Type} [Tabled α] {n : Nat}

/-! ### Ledgers -/

namespace Ledger

/-- How a request to a table of `n` slots ends, as its ledger tells. -/
def status (n : Nat) (l : List α) (a : α) : RegistryStatus :=
  if complete a = false then .invalid
  else if n ≤ l.length then .full
  else if ∃ b ∈ l, description b = description a then .duplicate
  else .ok

/-- What a request adds to a ledger. -/
def accepted (n : Nat) (l : List α) (a : α) : List α := if status n l a = .ok then [a] else []

theorem status_eq_ok_iff {l : List α} {a : α} :
    status n l a = .ok ↔
      complete a = true ∧ l.length < n ∧ ∀ b ∈ l, description b ≠ description a := by
  rw [status]
  constructor
  · intro h
    split at h
    · cases h
    · rename_i hc
      split at h
      · cases h
      · rename_i hn
        split at h
        · cases h
        · rename_i hd
          push Not at hd
          exact ⟨eq_true_of_ne_false hc, by omega, hd⟩
  · rintro ⟨hc, hn, hd⟩
    have hnone : ¬∃ b ∈ l, description b = description a := fun ⟨b, hb, e⟩ => hd b hb e
    rw [if_neg (by simp [hc]), if_neg (by omega), if_neg hnone]

end Ledger

/-! ### What a table holds -/

namespace SlotTable

/-- An entry that is complete goes by its own description only. -/
theorem isCalled_iff {a : α} (h : complete a = true) (text : Text) :
    isCalled a text = true ↔ description a = some text := by
  obtain ⟨d, hd⟩ := Option.isSome_iff_exists.1 (isSome_description h)
  simp [isCalled, hd]

/-- A table stands for a ledger. -/
structure Holds (t : SlotTable α n) (l : List α) : Prop where
  wellFormed : t.WellFormed
  toList_eq : t.toList = byPriority l
  complete : ∀ a ∈ l, complete a = true
  distinct : (l.map description).Nodup

variable {t : SlotTable α n} {l : List α}

theorem holds_empty : (empty : SlotTable α n).Holds [] where
  wellFormed := wellFormed_empty
  toList_eq := by simp
  complete := by simp
  distinct := List.nodup_nil

theorem Holds.mem_toList (h : t.Holds l) {a : α} : a ∈ t.toList ↔ a ∈ l := by
  rw [h.toList_eq, mem_byPriority]

theorem Holds.count_eq (h : t.Holds l) : t.count = l.length := by
  rw [← length_toList h.wellFormed.count_le, h.toList_eq, (byPriority_perm l).length_eq]

theorem Holds.distinct_toList (h : t.Holds l) : (t.toList.map description).Nodup := by
  rw [h.toList_eq, ((byPriority_perm l).map description).nodup_iff]
  exact h.distinct

/-- A table answers a request as its ledger does. -/
theorem Holds.add_fst (h : t.Holds l) (a : α) : (t.add a).1 = Ledger.status n l a := by
  rw [add, Ledger.status, ← h.count_eq]
  cases hc : Tabled.complete a with
  | false => rfl
  | true =>
    obtain ⟨d, hd⟩ := Option.isSome_iff_exists.1 (isSome_description hc)
    have hany : t.toList.any (isCalled · ((description a).getD [])) = true ↔
        ∃ b ∈ l, description b = description a := by
      rw [List.any_eq_true, hd]
      constructor
      · rintro ⟨b, hb, hcalled⟩
        have hb := h.mem_toList.1 hb
        exact ⟨b, hb, (isCalled_iff (h.complete b hb) d).1 hcalled⟩
      · rintro ⟨b, hb, hdesc⟩
        exact ⟨b, h.mem_toList.2 hb, (isCalled_iff (h.complete b hb) d).2 hdesc⟩
    simp only [hany, Bool.not_true, Bool.false_eq_true, Bool.true_eq_false, if_false]
    split
    · rfl
    · split <;> rfl

/-- An entry that is accepted is written at the end of the ledger. -/
theorem Holds.add (h : t.Holds l) (a : α) :
    (t.add a).2.Holds (l ++ Ledger.accepted n l a) := by
  have hstatus := h.add_fst a
  rw [Ledger.accepted]
  by_cases hok : Ledger.status n l a = .ok
  · obtain ⟨hc, hn, hd⟩ := Ledger.status_eq_ok_iff.1 hok
    have hadd : (t.add a).2 = t.insertAt (t.place a) a := by
      rw [hok] at hstatus
      revert hstatus
      rw [SlotTable.add]
      repeat' split
      all_goals simp
    have hroom : t.count < n := by rw [h.count_eq]; exact hn
    -- the place of the entry is among the slots in use or right behind them
    have hplace : t.place a ≤ t.count := by
      rw [← length_toList h.wellFormed.count_le]
      exact List.findIdx_le_length
    rw [if_pos hok, hadd]
    refine ⟨h.wellFormed.insertAt hplace hroom a, ?_, ?_, ?_⟩
    · rw [toList_insertAt hplace hroom, place, h.toList_eq]
      exact insertIdx_byPriority l a
    · intro b hb
      rcases List.mem_append.1 hb with hb | hb
      · exact h.complete b hb
      · rw [List.mem_singleton.1 hb]
        exact hc
    · rw [List.map_append, List.map_singleton, List.nodup_append]
      refine ⟨h.distinct, List.nodup_singleton _, ?_⟩
      intro x hx y hy
      obtain ⟨b, hb, rfl⟩ := List.mem_map.1 hx
      rw [List.mem_singleton.1 hy]
      exact hd b hb
  · -- a refusal writes nothing, neither in the table nor in the ledger
    have hadd : (t.add a).2 = t := by
      rw [← hstatus] at hok
      revert hok
      rw [SlotTable.add]
      repeat' split
      all_goals simp
    rw [if_neg hok, hadd, List.append_nil]
    exact h

/-- Entries that pass a test are struck out of the ledger. -/
theorem Holds.removeAll (h : t.Holds l) (p : α → Bool) :
    (t.removeAll p).2.Holds (l.filter fun a => !p a) where
  wellFormed := h.wellFormed.removeAll p
  toList_eq := by
    rw [toList_removeAll h.wellFormed.count_le, h.toList_eq, filter_byPriority]
  complete a ha := h.complete a (List.mem_filter.1 ha).1
  distinct := h.distinct.sublist (List.filter_sublist.map description)

/-- A slot that is found holds the one entry of the ledger that goes by the description. -/
theorem Holds.of_find? (h : t.Holds l) {text : Text} {i : Nat} (hi : t.find? text = some i) :
    i < t.count ∧ t.slot i ∈ l ∧ description (t.slot i) = some text := by
  obtain ⟨hlt, hcalled, -⟩ := List.findIdx?_eq_some_iff_getElem.1 hi
  have hcount : i < t.count := by rwa [length_toList h.wellFormed.count_le] at hlt
  have hslot : t.toList[i] = t.slot i := by
    simp [toList_eq_map_slot h.wellFormed.count_le]
  have hmem : t.slot i ∈ l := h.mem_toList.1 (hslot ▸ List.getElem_mem hlt)
  rw [hslot] at hcalled
  exact ⟨hcount, hmem, (isCalled_iff (h.complete _ hmem) text).1 hcalled⟩

theorem Holds.find?_eq_none_iff (h : t.Holds l) {text : Text} :
    t.find? text = none ↔ ∀ a ∈ l, description a ≠ some text := by
  rw [find?, List.findIdx?_eq_none_iff]
  constructor
  · intro hnone a ha hd
    have := hnone a (h.mem_toList.2 ha)
    rw [(isCalled_iff (h.complete a ha) text).2 hd] at this
    exact Bool.noConfusion this
  · intro hnone a ha
    have ha := h.mem_toList.1 ha
    exact Bool.eq_false_iff.2 fun hcalled =>
      hnone a ha ((isCalled_iff (h.complete a ha) text).1 hcalled)

/-- The ledger has one entry of a description at most. -/
theorem Holds.eq_of_description (h : t.Holds l) {a b : α} (ha : a ∈ l) (hb : b ∈ l)
    (hd : description a = description b) : a = b :=
  List.inj_on_of_nodup_map h.distinct ha hb hd

/-- Where one entry at most passes a test, it is the one that a filter leaves out. -/
theorem eraseP_eq_filter {β : Type} {p : β → Bool} {l : List β}
    (h : l.Pairwise fun a b => ¬(p a = true ∧ p b = true)) :
    l.eraseP p = l.filter fun a => !p a := by
  induction l with
  | nil => rfl
  | cons a l ih =>
    obtain ⟨ha, hl⟩ := List.pairwise_cons.1 h
    cases hp : p a with
    | true =>
      have hrest : l.filter (fun b => !p b) = l := by
        rw [List.filter_eq_self]
        intro b hb
        simpa using fun hpb => ha b hb ⟨hp, hpb⟩
      rw [List.eraseP_cons_of_pos hp, List.filter_cons_of_neg (by simp [hp]), hrest]
    | false =>
      rw [List.eraseP_cons_of_neg (by simp [hp]), List.filter_cons_of_pos (by simp [hp]), ih hl]

/-- The entry in a slot that is found is struck out of the ledger. -/
theorem Holds.removeAt (h : t.Holds l) {text : Text} {i : Nat} (hi : t.find? text = some i) :
    (t.removeAt i).Holds (l.filter fun a => description a != some text) := by
  obtain ⟨hlt, -, -⟩ := h.of_find? hi
  have hcalled : ∀ a ∈ t.toList, isCalled a text = true ↔ description a = some text :=
    fun a ha => isCalled_iff (h.complete a (h.mem_toList.1 ha)) text
  have hone : t.toList.Pairwise fun a b => ¬(isCalled a text = true ∧ isCalled b text = true) := by
    refine (List.pairwise_map.1 h.distinct_toList).imp_of_mem fun {a b} ha hb hne hab => hne ?_
    rw [(hcalled a ha).1 hab.1, (hcalled b hb).1 hab.2]
  -- to erase the first entry of the description is to filter out all of them
  have herase : t.toList.eraseIdx i = t.toList.filter fun a => description a != some text := by
    calc t.toList.eraseIdx i
        = t.toList.eraseP (isCalled · text) := by rw [List.eraseP_eq_eraseIdx, ← find?, hi]
      _ = t.toList.filter fun a => !isCalled a text := eraseP_eq_filter hone
      _ = t.toList.filter fun a => description a != some text := by
        refine List.filter_congr fun a ha => ?_
        rw [Bool.eq_iff_iff]
        simp [← hcalled a ha]
  refine ⟨h.wellFormed.removeAt i, ?_, fun a ha => h.complete a (List.mem_filter.1 ha).1,
    h.distinct.sublist (List.filter_sublist.map description)⟩
  rw [toList_removeAt hlt h.wellFormed.count_le, herase, h.toList_eq, filter_byPriority]

end SlotTable

end Supervisor
