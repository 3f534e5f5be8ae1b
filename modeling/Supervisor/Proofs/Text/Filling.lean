/-
Strings that are put together in a buffer.

A string is copied into the first bytes of a block, others are appended to it one after the other,
and each time what does not fit is lost.  Whatever the cuts, the block holds the start of the whole
text: an append to a string that was cut finds no room, and one to a string that was not goes on
where it ends.

* `Buffer.filled` — a block after as much of a text as leaves room for a NUL was put into its first
  bytes;
* `drop_filled_of_le`, `upToNul_filled` — what is behind and what is in front;
* `copyWithin_eq`, `append_filled` — a copy fills a block, and an append fills it with the longer
  text;
* `foldl_append_filled` — any number of appends.
-/
import Supervisor.Text.Buffer
import Mathlib.Data.List.Basic
import Mathlib.Tactic.Set

namespace Supervisor.Buffer

/-- The block `b` after as much of a text as leaves room for a NUL was put into its first `size`
bytes, a NUL behind it, and nothing else touched. -/
def filled (b : Buffer) (size : Nat) (t : Text) : Buffer :=
  t.take (size - 1) ++ 0 :: b.drop ((t.take (size - 1)).length + 1)

section

variable {b : Buffer} {size : Nat} {t u : Text}

theorem filled_of_fits (h : t.length < size) :
    b.filled size t = t ++ 0 :: b.drop (t.length + 1) := by
  rw [filled, List.take_of_length_le (by omega)]

/-- What stands behind the NUL is as it was. -/
theorem drop_filled_of_le {i : Nat} (h : (t.take (size - 1)).length + 1 ≤ i) :
    (b.filled size t).drop i = b.drop i := by
  obtain ⟨k, rfl⟩ := Nat.exists_eq_add_of_le h
  rw [filled, Nat.add_assoc, List.drop_append, List.drop_of_length_le (Nat.le_add_right _ _),
    List.nil_append, Nat.add_sub_cancel_left, Nat.add_comm 1 k, List.drop_succ_cons,
    List.drop_drop]
  congr 1
  omega

theorem drop_filled (hsize : 0 < size) : (b.filled size t).drop size = b.drop size := by
  refine drop_filled_of_le ?_
  rw [List.length_take]
  omega

theorem length_filled (hsize : 0 < size) (hblock : size ≤ b.length) :
    (b.filled size t).length = b.length := by
  rw [filled, List.length_append, List.length_cons, List.length_drop, List.length_take]
  omega

theorem upToNul_filled (h : (0 : UInt8) ∉ t) :
    Text.upToNul (b.filled size t) = t.take (size - 1) :=
  Text.upToNul_append_zero (fun hmem => h (List.mem_of_mem_take hmem)) _

/-- A text stored behind what stands in front of a block, and closed with a NUL. -/
theorem set_store {front : Text} (hfront : b.take front.length = front)
    (hroom : (front ++ t).length < b.length) :
    (b.store front.length t).set (front ++ t).length 0 =
      front ++ t ++ 0 :: b.drop ((front ++ t).length + 1) := by
  have hlength : (front ++ t).length = front.length + t.length := List.length_append
  have hstore : b.store front.length t = front ++ t ++ b.drop (front ++ t).length := by
    rw [store_eq (by omega), hfront, hlength, List.append_assoc]
  rw [hstore, set_behind hroom]

/-- A copy fills the block, and tells whether all of the text is there. -/
theorem copyWithin_eq (hsize : 0 < size) (hblock : size ≤ b.length) :
    b.copyWithin size (some t) = (decide (t.length < size), b.filled size t) := by
  rw [copyWithin, if_neg (Nat.ne_of_gt hsize)]
  by_cases hfits : t.length < size
  · have hlength : (t ++ [0]).length = t.length + 1 := List.length_append
    have hstore : b.store 0 (t ++ [0]) = t ++ 0 :: b.drop (t.length + 1) := by
      rw [store_eq (by omega), hlength, List.take_zero, List.nil_append, Nat.zero_add,
        List.append_assoc]
      rfl
    rw [decide_eq_true hfits, filled_of_fits hfits, ← hstore]
    exact if_pos hfits
  · have hlength : (t.take (size - 1)).length = size - 1 := by
      rw [List.length_take]
      omega
    have hclosed : (b.store 0 (t.take (size - 1))).set (size - 1) 0 = b.filled size t := by
      have hempty : b.take ([] : Text).length = [] := List.take_zero
      have hroom : (([] : Text) ++ t.take (size - 1)).length < b.length := by
        rw [List.nil_append]
        omega
      have hstored := set_store hempty hroom
      rw [List.nil_append, List.length_nil, ← filled] at hstored
      rwa [hlength] at hstored
    rw [decide_eq_false hfits, ← hclosed]
    exact if_neg hfits

/-- An append to a text that was cut or fills the block leaves it as it is; to one that leaves room
it adds what fits. -/
theorem append_filled (hsize : 0 < size) (hblock : size ≤ b.length) (ht : (0 : UInt8) ∉ t) :
    (b.filled size t).append (some u) size = b.filled size (t ++ u) := by
  rw [append]
  simp only [upToNul_filled ht]
  by_cases hroom : t.length + 1 < size
  · have hall : t.take (size - 1) = t := List.take_of_length_le (by omega)
    rw [hall, if_pos hroom]
    set added := u.take (size - t.length - 1) with hadded
    have hfull : (t ++ u).take (size - 1) = t ++ added := by
      rw [List.take_append, hall, hadded, Nat.sub_right_comm]
    have hfront : (b.filled size t).take t.length = t := by
      rw [filled_of_fits (by omega), List.take_left' rfl]
    have hadded_le : added.length ≤ size - t.length - 1 := List.length_take_le _ _
    have hfits : (t ++ added).length < (b.filled size t).length := by
      rw [length_filled hsize hblock, List.length_append]
      omega
    have hbehind : (b.filled size t).drop ((t ++ added).length + 1) =
        b.drop ((t ++ added).length + 1) := by
      refine drop_filled_of_le ?_
      rw [hall, List.length_append]
      omega
    rw [← List.length_append, set_store hfront hfits, hbehind, filled, hfull]
  · -- the text goes up to the last place, or was cut there
    have hfull : (t ++ u).take (size - 1) = t.take (size - 1) :=
      List.take_append_of_le_length (by omega)
    have hused : ¬(t.take (size - 1)).length + 1 < size := by
      rw [List.length_take]
      omega
    rw [if_neg hused, filled, filled, hfull]

/-- Appends one after the other fill the block with all the texts behind each other. -/
theorem foldl_append_filled (hsize : 0 < size) (hblock : size ≤ b.length) {ts : List Text}
    (hts : ∀ u ∈ t :: ts, (0 : UInt8) ∉ u) :
    ts.foldl (fun b u => b.append (some u) size) (b.filled size t) =
      b.filled size (t ++ ts.flatten) := by
  induction ts generalizing t with
  | nil => rw [List.foldl_nil, List.flatten_nil, List.append_nil]
  | cons u ts ih =>
    have ht : (0 : UInt8) ∉ t := hts t List.mem_cons_self
    have hu : (0 : UInt8) ∉ u := hts u (List.mem_cons_of_mem t List.mem_cons_self)
    have hnext : ∀ v ∈ (t ++ u) :: ts, (0 : UInt8) ∉ v := by
      intro v hv
      rcases List.mem_cons.1 hv with rfl | hv
      · rw [List.mem_append]
        exact fun h => h.elim ht hu
      · exact hts v (List.mem_cons_of_mem t (List.mem_cons_of_mem u hv))
    rw [List.foldl_cons, append_filled hsize hblock ht, ih hnext, List.flatten_cons,
      List.append_assoc]

end

end Supervisor.Buffer
