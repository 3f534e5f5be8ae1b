/-
Tables of slots.

A table has a fixed number of slots and uses them from the front.  A new entry is put before the
first one that is due strictly later, and what stands behind it moves up by one slot.  An entry
that goes away is covered by those behind it, which move down by one slot; the slot that falls
free at the end is made vacant again.

* `SlotTable.toList` — the entries, in the order of their slots;
* `SlotTable.insertAt`, `SlotTable.removeAt` — one entry, by moving the slots behind it;
* `SlotTable.removeAll` — every entry that passes a test, the last one first;
* `SlotTable.add` — an entry in its place, or why there is none for it.

The slots are moved one by one.  `toList_insertAt`, `toList_removeAt` and `toList_removeAll` say
what that comes to on the list of entries, and everything else goes through them.
-/
import Supervisor.Trap.Handler

namespace Supervisor

/-- What a table asks of its entries. -/
class Tabled (α : Type) where
  /-- What a slot holds that is not in use. -/
  vacant : α
  /-- Whether an entry has all that it takes to be stored. -/
  complete : α → Bool
  /-- What an entry is called. -/
  description : α → Option Text
  /-- The place of an entry among the others; lower comes first. -/
  priority : α → UInt8
  /-- What is complete is called something. -/
  isSome_description {a : α} : complete a = true → (description a).isSome = true

/-- A table of `n` slots. -/
structure SlotTable (α : Type) (n : Nat) where
  slots : Vector α n
  /-- The number of slots in use. -/
  count : Nat
deriving Repr, DecidableEq

namespace SlotTable

open Tabled

variable {α : Type} {n : Nat}

/-- The entries, in the order of their slots. -/
def toList (t : SlotTable α n) : List α := t.slots.toList.take t.count

theorem getElem?_toList (t : SlotTable α n) (i : Nat) :
    t.toList[i]? = if i < t.count then t.slots[i]? else none := by
  simp [toList, List.getElem?_take]

theorem length_toList {t : SlotTable α n} (h : t.count ≤ n) : t.toList.length = t.count := by
  simp [toList, h]

variable [Tabled α]

/-- The table without entries. -/
def empty : SlotTable α n := ⟨Vector.replicate n vacant, 0⟩

instance : Inhabited (SlotTable α n) := ⟨empty⟩

def slot (t : SlotTable α n) (i : Nat) : α := t.slots[i]?.getD vacant

/-- Makes every slot vacant. -/
def clear (t : SlotTable α n) : SlotTable α n := ⟨t.slots.map fun _ => vacant, 0⟩

/-- Whether an entry goes by a description; the missing one counts as empty. -/
def isCalled (a : α) (text : Text) : Bool := (description a).getD [] == text

/-- The slot of the first entry that goes by a description. -/
def find? (t : SlotTable α n) (text : Text) : Option Nat := t.toList.findIdx? (isCalled · text)

/-- The slot for a new entry: that of the first one due strictly later, or the next one. -/
def place (t : SlotTable α n) (a : α) : Nat := t.toList.findIdx fun b => priority a < priority b

/-- Copies slot `i` to slot `j`. -/
def copy (s : Vector α n) (i j : Nat) : Vector α n := s.setIfInBounds j (s[i]?.getD vacant)

/-- Moves `k` slots from `i` on up by one, the last one first. -/
def shiftUp (s : Vector α n) (i k : Nat) : Vector α n :=
  (List.range' i k).foldr (fun j s => copy s j (j + 1)) s

/-- Moves `k` slots behind slot `i` down by one, the first one first. -/
def shiftDown (s : Vector α n) (i k : Nat) : Vector α n :=
  (List.range' i k).foldl (fun s j => copy s (j + 1) j) s

/-- Puts an entry into slot `i`, from which on everything moves up. -/
def insertAt (t : SlotTable α n) (i : Nat) (a : α) : SlotTable α n :=
  ⟨(shiftUp t.slots i (t.count - i)).setIfInBounds i a, t.count + 1⟩

/-- Removes the entry in slot `i`, behind which everything moves down. -/
def removeAt (t : SlotTable α n) (i : Nat) : SlotTable α n :=
  if t.count ≤ i then t
  else ⟨(shiftDown t.slots i (t.count - 1 - i)).setIfInBounds (t.count - 1) vacant, t.count - 1⟩

/-- The slots of the entries that pass a test. -/
def places (t : SlotTable α n) (p : α → Bool) : List Nat :=
  (List.range t.count).filter fun i => p (t.slot i)

/-- Removes the entries that pass a test, the last one first so that the places of the others
stay right; gives their number. -/
def removeAll (t : SlotTable α n) (p : α → Bool) : Nat × SlotTable α n :=
  ((t.places p).length, (t.places p).foldr (fun i t => t.removeAt i) t)

/-- Adds an entry in its place, unless it is incomplete, there is no room, or another entry goes
by its description. -/
def add (t : SlotTable α n) (a : α) : RegistryStatus × SlotTable α n :=
  if !complete a then (.invalid, t)
  else if n ≤ t.count then (.full, t)
  else if t.toList.any (isCalled · ((description a).getD [])) then (.duplicate, t)
  else (.ok, t.insertAt (t.place a) a)

/-! ### What moving slots comes to -/

theorem getElem?_copy {s : Vector α n} {i j : Nat} (hi : i < n) (hj : j < n) (k : Nat) :
    (copy s i j)[k]? = if k = j then s[i]? else s[k]? := by
  rw [copy, Vector.getElem?_setIfInBounds]
  by_cases h : j = k
  · subst h
    simp [hi, hj]
  · rw [if_neg h, if_neg fun e => h e.symm]

/-- After a shift up, slots `i + 1` to `i + k` hold what their left neighbours held. -/
theorem getElem?_shiftUp {s : Vector α n} {i k : Nat} (h : i + k < n) (j : Nat) :
    (shiftUp s i k)[j]? = if i < j ∧ j ≤ i + k then s[j - 1]? else s[j]? := by
  induction k generalizing i j with
  | zero => rw [if_neg (by omega)]; rfl
  | succ k ih =>
    -- the last copy goes from slot `i`, which the copies before it have not touched
    have hs : shiftUp s i (k + 1) = copy (shiftUp s (i + 1) k) i (i + 1) := by
      rw [shiftUp, List.range'_succ, List.foldr_cons, shiftUp]
    rw [hs, getElem?_copy (by omega) (by omega), ih (by omega), ih (by omega)]
    by_cases hj : j = i + 1
    · subst hj
      rw [if_pos rfl, if_neg (by omega), if_pos (by omega), Nat.add_sub_cancel]
    · rw [if_neg hj]
      by_cases hm : i + 1 < j ∧ j ≤ i + 1 + k
      · rw [if_pos hm, if_pos (by omega)]
      · rw [if_neg hm, if_neg (by omega)]

/-- After a shift down, slots `i` to `i + k - 1` hold what their right neighbours held. -/
theorem getElem?_shiftDown {s : Vector α n} {i k : Nat} (h : i + k < n) (j : Nat) :
    (shiftDown s i k)[j]? = if i ≤ j ∧ j < i + k then s[j + 1]? else s[j]? := by
  induction k generalizing s i j with
  | zero => rw [if_neg (by omega)]; rfl
  | succ k ih =>
    -- the copies after the first one start from slot `i + 2` and read nothing that it wrote
    have hs : shiftDown s i (k + 1) = shiftDown (copy s (i + 1) i) (i + 1) k := by
      rw [shiftDown, List.range'_succ, List.foldl_cons, shiftDown]
    rw [hs, ih (by omega), getElem?_copy (by omega) (by omega),
      getElem?_copy (by omega) (by omega)]
    by_cases hj : j = i
    · subst hj
      rw [if_neg (by omega), if_pos rfl, if_pos (by omega)]
    · by_cases hm : i + 1 ≤ j ∧ j < i + 1 + k
      · rw [if_pos hm, if_neg (by omega), if_pos (by omega)]
      · rw [if_neg hm, if_neg hj, if_neg (by omega)]

/-! ### The list of entries -/

@[simp] theorem toList_empty : (empty : SlotTable α n).toList = [] := by simp [toList, empty]

/-- The shift up makes room for an entry in the list. -/
theorem toList_insertAt {t : SlotTable α n} {i : Nat} (hi : i ≤ t.count) (ht : t.count < n)
    (a : α) : (t.insertAt i a).toList = t.toList.insertIdx i a := by
  refine List.ext_getElem? fun j => ?_
  rw [getElem?_toList, List.getElem?_insertIdx, length_toList (Nat.le_of_lt ht)]
  simp only [insertAt, Vector.getElem?_setIfInBounds, getElem?_toList]
  rw [getElem?_shiftUp (by omega)]
  -- below `i` nothing moves, slot `i` is written, and above it each slot has its left neighbour
  by_cases hlt : j < i
  · rw [if_pos hlt, if_pos (by omega), if_neg (by omega), if_neg (by omega), if_pos (by omega)]
  · by_cases heq : j = i
    · subst heq
      simp [hi, Nat.lt_of_le_of_lt hi ht, Nat.lt_succ_of_le hi]
    · rw [if_neg hlt, if_neg heq]
      by_cases hj : j < t.count + 1
      · rw [if_pos hj, if_neg (by omega), if_pos (by omega), if_pos (by omega)]
      · rw [if_neg hj, if_neg (by omega)]

/-- The shift down closes the gap of an entry in the list. -/
theorem toList_removeAt {t : SlotTable α n} {i : Nat} (hi : i < t.count) (ht : t.count ≤ n) :
    (t.removeAt i).toList = t.toList.eraseIdx i := by
  refine List.ext_getElem? fun j => ?_
  rw [getElem?_toList, List.getElem?_eraseIdx]
  simp only [removeAt, if_neg (Nat.not_le.2 hi), Vector.getElem?_setIfInBounds, getElem?_toList]
  rw [getElem?_shiftDown (by omega)]
  -- the last slot in use falls free; from `i` up to it each slot has its right neighbour
  by_cases hj : j < t.count - 1
  · rw [if_pos hj, if_neg (by omega)]
    by_cases hlt : j < i
    · rw [if_pos hlt, if_neg (by omega), if_pos (by omega)]
    · rw [if_neg hlt, if_pos (by omega), if_pos (by omega)]
  · rw [if_neg hj, if_neg (by omega), if_neg (by omega)]

/-- The invariant of a table. -/
structure WellFormed (t : SlotTable α n) : Prop where
  count_le : t.count ≤ n
  /-- The slots that are not in use are vacant. -/
  vacant_of_le : ∀ i, t.count ≤ i → i < n → t.slots[i]? = some vacant

theorem wellFormed_empty : (empty : SlotTable α n).WellFormed where
  count_le := Nat.zero_le n
  vacant_of_le i _ hi := by simp [empty, hi]

@[simp] theorem clear_eq_empty (t : SlotTable α n) : t.clear = empty := by
  simp [clear, empty, Vector.map_const']

theorem WellFormed.insertAt {t : SlotTable α n} (h : t.WellFormed) {i : Nat} (hi : i ≤ t.count)
    (ht : t.count < n) (a : α) : (t.insertAt i a).WellFormed where
  count_le := ht
  vacant_of_le j hj hn := by
    have hj' : t.count + 1 ≤ j := hj
    simp only [SlotTable.insertAt, Vector.getElem?_setIfInBounds]
    rw [if_neg (by omega), getElem?_shiftUp (by omega), if_neg (by omega)]
    exact h.vacant_of_le j (by omega) hn

theorem WellFormed.removeAt {t : SlotTable α n} (h : t.WellFormed) (i : Nat) :
    (t.removeAt i).WellFormed := by
  rw [SlotTable.removeAt]
  split
  · exact h
  · have hn := h.count_le
    refine ⟨by simp only; omega, fun j hj hjn => ?_⟩
    simp only at hj
    simp only [Vector.getElem?_setIfInBounds]
    -- only the slot that fell free is newly out of use, and it was cleared
    by_cases he : t.count - 1 = j
    · rw [if_pos he, if_pos (by omega)]
    · rw [if_neg he, getElem?_shiftDown (by omega), if_neg (by omega)]
      exact h.vacant_of_le j (by omega) hjn

theorem toList_eq_map_slot {t : SlotTable α n} (h : t.count ≤ n) :
    t.toList = (List.range t.count).map t.slot := by
  refine List.ext_getElem? fun i => ?_
  rw [getElem?_toList]
  by_cases hi : i < t.count
  · have hn : i < n := by omega
    simp [hi, hn, slot]
  · simp [hi]

/-- Removing the entries below slot `k` that pass a test, the last one first, keeps the others
in order. -/
theorem toList_foldr_removeAt {p : α → Bool} {q : Nat → Bool} {k : Nat} {t : SlotTable α n}
    (ht : t.count ≤ n) (hk : k ≤ t.count) (hq : ∀ i < k, t.toList[i]?.any p = q i) :
    (((List.range k).filter q).foldr (fun i t => t.removeAt i) t).toList =
      (t.toList.take k).filter (fun a => !p a) ++ t.toList.drop k := by
  induction k generalizing t with
  | zero => simp
  | succ k ih =>
    have hlen := length_toList ht
    have hkl : k < t.toList.length := by omega
    have hqk : q k = p t.toList[k] := by rw [← hq k (by omega)]; simp [hkl]
    rw [List.range_succ, List.filter_append, List.foldr_append, List.take_add_one,
      List.getElem?_eq_getElem hkl, List.filter_append]
    cases hp : p t.toList[k] with
    | true =>
      -- slot `k` goes first, and the entries below it stay where they are
      have hl := toList_removeAt (by omega : k < t.count) ht
      have hc : (t.removeAt k).count = t.count - 1 := by rw [removeAt, if_neg (by omega)]
      simp only [hqk, hp, List.filter_cons, List.filter_nil, if_true, List.foldr_cons,
        List.foldr_nil, Option.toList_some, Bool.not_true]
      rw [ih (by omega) (by omega) fun i hi => ?_]
      · rw [hl, List.eraseIdx_eq_take_drop_succ, List.take_append_of_le_length (by simp; omega),
          List.drop_append_of_le_length (by simp; omega), List.take_take, Nat.min_self]
        simp
      · rw [hl, List.getElem?_eraseIdx_of_lt hi]
        exact hq i (by omega)
    | false =>
      -- slot `k` stays, and joins what stands behind it
      simp only [hqk, hp, List.filter_cons, List.filter_nil, Option.toList_some, Bool.not_false,
        if_true]
      rw [if_neg (by simp), List.foldr_nil, ih ht (by omega) fun i hi => hq i (by omega),
        List.drop_eq_getElem_cons hkl, List.append_assoc]
      rfl

/-- The removal of all entries that pass a test is a filter of the list. -/
theorem toList_removeAll {t : SlotTable α n} (ht : t.count ≤ n) (p : α → Bool) :
    (t.removeAll p).2.toList = t.toList.filter fun a => !p a := by
  have hlen := length_toList ht
  have hp : ∀ i < t.count, t.toList[i]?.any p = p (t.slot i) := by
    intro i hi
    rw [toList_eq_map_slot ht]
    simp [hi]
  rw [removeAll, places, toList_foldr_removeAt ht (Nat.le_refl _) hp, ← hlen]
  simp

/-- The number of entries removed is the number of those that pass the test. -/
theorem removeAll_fst {t : SlotTable α n} (ht : t.count ≤ n) (p : α → Bool) :
    (t.removeAll p).1 = t.toList.countP p := by
  rw [removeAll, places, ← List.countP_eq_length_filter, toList_eq_map_slot ht, List.countP_map]
  rfl

theorem WellFormed.removeAll {t : SlotTable α n} (h : t.WellFormed) (p : α → Bool) :
    (t.removeAll p).2.WellFormed := by
  rw [SlotTable.removeAll]
  induction t.places p with
  | nil => exact h
  | cons i is ih => exact ih.removeAt i

end SlotTable

end Supervisor
