/-
The stable order by priority.

`byPriority l` is the stable sort of a list: ascending in priority, and equals in the order in
which they stand in `l`.  These two facts determine it (`eq_of_sorted`), and so two changes of `l`
can be made on the sorted list directly:

* `insertIdx_byPriority` — an entry that comes last is put before the first one due strictly
  later;
* `filter_byPriority` — entries go away without a move of the others;
* `pair_sublist_byPriority` — equals stand as they stood before the sort.
-/
import Supervisor.Slots
import Mathlib.Data.List.Basic
import Mathlib.Data.List.InsertIdx

namespace Supervisor

open Tabled

variable {α : Type} [Tabled α]

/-- A list that ascends in priority. -/
def Ascending (l : List α) : Prop := l.Pairwise fun a b => priority a ≤ priority b

/-- The stable sort by priority. -/
def byPriority (l : List α) : List α := l.mergeSort fun a b => priority a ≤ priority b

theorem ascending_byPriority (l : List α) : Ascending (byPriority l) := by
  refine (List.pairwise_mergeSort ?_ ?_ l).imp fun h => of_decide_eq_true h
  · intro a b c hab hbc
    exact decide_eq_true (UInt8.le_trans (of_decide_eq_true hab) (of_decide_eq_true hbc))
  · intro a b
    simpa using UInt8.le_total (priority a) (priority b)

theorem byPriority_perm (l : List α) : (byPriority l).Perm l := List.mergeSort_perm l _

@[simp] theorem mem_byPriority {a : α} {l : List α} : a ∈ byPriority l ↔ a ∈ l :=
  (byPriority_perm l).mem_iff

@[simp] theorem byPriority_nil : byPriority ([] : List α) = [] := List.mergeSort_nil

/-- The sort is stable: it leaves the entries of one priority in order. -/
theorem filter_priority_byPriority (l : List α) (k : UInt8) :
    (byPriority l).filter (priority · == k) = l.filter (priority · == k) := by
  set c := l.filter (priority · == k) with hc
  have hk : ∀ a ∈ c, priority a = k := fun a ha => by simpa using (List.mem_filter.1 ha).2
  have hsorted : c.Pairwise fun a b => decide (priority a ≤ priority b) = true := by
    refine List.pairwise_of_forall_mem_list fun a ha b hb => ?_
    rw [hk a ha, hk b hb]
    exact decide_eq_true (UInt8.le_refl k)
  -- equals are in order as they stand, and the sort keeps every sublist that is in order
  have hsub : c.Sublist (byPriority l) := by
    refine List.sublist_mergeSort ?_ ?_ hsorted List.filter_sublist
    · intro a b d hab hbd
      exact decide_eq_true (UInt8.le_trans (of_decide_eq_true hab) (of_decide_eq_true hbd))
    · intro a b
      simpa using UInt8.le_total (priority a) (priority b)
  have hfilter : c.filter (priority · == k) = c := by
    rw [List.filter_eq_self]
    exact fun a ha => by simp [hk a ha]
  have hlen : ((byPriority l).filter (priority · == k)).length = c.length :=
    ((byPriority_perm l).filter _).length_eq
  -- nothing else of priority `k` can be in the sort, for it would make the filter longer
  have hsub' := hsub.filter (priority · == k)
  rw [hfilter] at hsub'
  exact (hsub'.eq_of_length hlen.symm).symm

/-- What stands first in an ascending list is due no later. -/
theorem Ascending.priority_le {l : List α} (h : Ascending l) {a b : α} (hab : [a, b].Sublist l) :
    priority a ≤ priority b := by
  have hpair : Ascending [a, b] := h.sublist hab
  exact (List.pairwise_cons.1 hpair).1 b (List.mem_singleton_self b)

/-- Two entries of one priority stand in the sort as they stood before it. -/
theorem pair_sublist_byPriority {l : List α} {a b : α} (hab : priority a = priority b) :
    [a, b].Sublist (byPriority l) ↔ [a, b].Sublist l := by
  -- both entries pass the filter of their priority, and that is the same for the two lists
  have hfilter (l : List α) :
      [a, b].Sublist l ↔ [a, b].Sublist (l.filter (priority · == priority b)) := by
    refine ⟨fun h => ?_, fun h => h.trans List.filter_sublist⟩
    have hpair : [a, b].filter (priority · == priority b) = [a, b] := by simp [hab]
    exact hpair ▸ h.filter _
  rw [hfilter, filter_priority_byPriority, ← hfilter]

/-- An ascending list is determined by the order among the entries of each priority. -/
theorem eq_of_sorted {l₁ l₂ : List α} (h₁ : Ascending l₁) (h₂ : Ascending l₂)
    (h : ∀ k, l₁.filter (priority · == k) = l₂.filter (priority · == k)) : l₁ = l₂ := by
  have hmem : ∀ a, a ∈ l₁ ↔ a ∈ l₂ := by
    intro a
    have ha := congrArg (a ∈ ·) (h (priority a))
    simpa using ha
  induction l₁ generalizing l₂ with
  | nil =>
    refine (List.eq_nil_iff_forall_not_mem.2 fun a ha => ?_).symm
    exact List.not_mem_nil ((hmem a).2 ha)
  | cons a l₁ ih =>
    match l₂ with
    | [] => exact absurd ((hmem a).1 List.mem_cons_self) List.not_mem_nil
    | b :: l₂ =>
      obtain ⟨ha, h₁'⟩ := List.pairwise_cons.1 h₁
      obtain ⟨hb, h₂'⟩ := List.pairwise_cons.1 h₂
      -- both heads have the least priority, so they head the same list of equals
      have hab : priority a = priority b := by
        refine UInt8.le_antisymm ?_ ?_
        · rcases List.mem_cons.1 ((hmem b).2 List.mem_cons_self) with e | hm
          · rw [e]; exact UInt8.le_refl _
          · exact ha b hm
        · rcases List.mem_cons.1 ((hmem a).1 List.mem_cons_self) with e | hm
          · rw [e]; exact UInt8.le_refl _
          · exact hb a hm
      have heq := h (priority a)
      rw [List.filter_cons_of_pos (by simp), List.filter_cons_of_pos (by simp [hab])] at heq
      obtain ⟨rfl, -⟩ := List.cons.inj heq
      -- the heads are equal now, and without them the filters still agree
      have htail : ∀ k, l₁.filter (priority · == k) = l₂.filter (priority · == k) := by
        intro k
        have hk := h k
        rw [List.filter_cons, List.filter_cons] at hk
        split at hk
        · exact (List.cons.inj hk).2
        · exact hk
      refine congrArg (a :: ·) (ih h₁' h₂' htail fun c => ?_)
      have hc := congrArg (c ∈ ·) (htail (priority c))
      simpa using hc

/-- Puts an entry before the first one that is due strictly later. -/
def insertByPriority (a : α) : List α → List α
  | [] => [a]
  | b :: l => if priority a < priority b then a :: b :: l else b :: insertByPriority a l

theorem insertByPriority_eq (a : α) (l : List α) :
    insertByPriority a l = l.insertIdx (l.findIdx fun b => priority a < priority b) a := by
  induction l with
  | nil => rfl
  | cons b l ih =>
    rw [insertByPriority, List.findIdx_cons]
    by_cases h : priority a < priority b
    · simp [h]
    · simp [h, ih]

theorem mem_insertByPriority {a b : α} {l : List α} :
    b ∈ insertByPriority a l ↔ b = a ∨ b ∈ l := by
  induction l with
  | nil => simp [insertByPriority]
  | cons c l ih =>
    rw [insertByPriority]
    split
    · simp
    · rw [List.mem_cons, ih, List.mem_cons]
      exact or_left_comm

theorem Ascending.insertByPriority {l : List α} (h : Ascending l) (a : α) :
    Ascending (insertByPriority a l) := by
  induction l with
  | nil => exact List.pairwise_singleton _ _
  | cons b l ih =>
    obtain ⟨hb, hl⟩ := List.pairwise_cons.1 h
    rw [Supervisor.insertByPriority]
    split
    · rename_i hab
      refine List.pairwise_cons.2 ⟨fun c hc => ?_, h⟩
      rcases List.mem_cons.1 hc with rfl | hc
      · exact UInt8.le_of_lt hab
      · exact UInt8.le_trans (UInt8.le_of_lt hab) (hb c hc)
    · rename_i hab
      refine List.pairwise_cons.2 ⟨fun c hc => ?_, ih hl⟩
      rcases mem_insertByPriority.1 hc with rfl | hc
      · exact UInt8.not_lt.1 hab
      · exact hb c hc

/-- Among its equals, an inserted entry comes last. -/
theorem filter_insertByPriority {l : List α} (h : Ascending l) (a : α) (k : UInt8) :
    (insertByPriority a l).filter (priority · == k) =
      l.filter (priority · == k) ++ [a].filter (priority · == k) := by
  induction l with
  | nil => rfl
  | cons b l ih =>
    obtain ⟨hb, hl⟩ := List.pairwise_cons.1 h
    rw [insertByPriority]
    split
    · rename_i hab
      -- everything from `b` on is due later than `a`, so no equal of `a` is left
      by_cases hk : priority a = k
      · have hnone : (b :: l).filter (priority · == k) = [] := by
          refine List.filter_eq_nil_iff.2 fun c hc hck => ?_
          have hle : priority b ≤ priority c := by
            rcases List.mem_cons.1 hc with rfl | hc
            · exact UInt8.le_refl _
            · exact hb c hc
          have hck : priority c = k := by simpa using hck
          rw [hck, ← hk] at hle
          exact UInt8.not_le.2 hab hle
        rw [List.filter_cons, hnone]
        simp [hk]
      · rw [List.filter_cons]
        simp [hk]
    · rw [List.filter_cons, List.filter_cons, ih hl]
      split <;> simp

/-- An entry that comes last is put before the first one that is due strictly later. -/
theorem insertIdx_byPriority (l : List α) (a : α) :
    (byPriority l).insertIdx ((byPriority l).findIdx fun b => priority a < priority b) a =
      byPriority (l ++ [a]) := by
  rw [← insertByPriority_eq]
  refine eq_of_sorted ((ascending_byPriority l).insertByPriority a) (ascending_byPriority _) ?_
  intro k
  rw [filter_insertByPriority (ascending_byPriority l), filter_priority_byPriority,
    filter_priority_byPriority, List.filter_append]

/-- Entries that come later do not move the others. -/
theorem byPriority_sublist_append (l added : List α) :
    (byPriority l).Sublist (byPriority (l ++ added)) := by
  induction added generalizing l with
  | nil => rw [List.append_nil]
  | cons a added ih =>
    have hone : (byPriority l).Sublist (byPriority (l ++ [a])) := by
      rw [← insertIdx_byPriority]
      exact List.sublist_insertIdx _ _ _
    have hrest := ih (l ++ [a])
    rw [List.append_assoc, List.singleton_append] at hrest
    exact hone.trans hrest

/-- Entries that go away do not move the others. -/
theorem filter_byPriority (p : α → Bool) (l : List α) :
    (byPriority l).filter p = byPriority (l.filter p) := by
  refine eq_of_sorted ((ascending_byPriority l).filter p) (ascending_byPriority _) fun k => ?_
  calc ((byPriority l).filter p).filter (priority · == k)
      = ((byPriority l).filter (priority · == k)).filter p := List.filter_comm ..
    _ = (l.filter (priority · == k)).filter p := by rw [filter_priority_byPriority]
    _ = (l.filter p).filter (priority · == k) := List.filter_comm ..
    _ = (byPriority (l.filter p)).filter (priority · == k) := (filter_priority_byPriority _ k).symm

end Supervisor
