/-
What requests for frame slots do to one nesting.

A nesting is looked at through its limit, the depths of its banks, and the frames in its slots.

* `Nesting.claim_of_lt`, `Nesting.claim_of_le` — a claim raises one depth, or is refused;
* `Nesting.giveBack_of_pos`, `Nesting.giveBack_of_zero` — to give back lowers one depth, or is
  refused;
* `Nesting.slotFrame_storeFrame` — to store a frame changes one slot;
* `Nesting.SameBut` — a change of one bank leaves the others alone;
* `Nesting.frame?_eq_none_iff`, `Nesting.frame?_of_le` — what a hart reads back;
* `Nesting.opened_withDepth` — the number of open slots.
-/
import Supervisor.Nesting
import Mathlib.Algebra.BigOperators.Group.Finset.Basic
import Mathlib.Algebra.Order.BigOperators.Group.Finset
import Mathlib.Data.Fintype.BigOperators

namespace Supervisor

namespace Nesting

variable {n : Nesting} {level : Nat} {core : UInt32} {b : Fin bankCount}

/-- How many slots are open in all banks. -/
def opened (n : Nesting) : Nat := ∑ b, n.depth b

theorem depth_eq (n : Nesting) (core : UInt32) : (n.bank core).depth = n.depth (bankOf core) := rfl

/-! ### Banks -/

theorem depth_withDepth (n : Nesting) (b : Fin bankCount) (d : Nat) :
    (n.withDepth b d).depth = Function.update n.depth b d := by
  funext i
  rw [depth, withDepth, getElem_setBank, Function.update_apply]
  by_cases h : b = i
  · rw [if_pos h, if_pos h.symm]
  · rw [if_neg h, if_neg (Ne.symm h)]
    rfl

/-- To change a depth touches no frame. -/
theorem slotFrame_withDepth (n : Nesting) (b : Fin bankCount) (d : Nat) (s : Slot) :
    (n.withDepth b d).slotFrame s = n.slotFrame s := by
  rw [slotFrame, slotFrame, withDepth, getElem_setBank]
  by_cases h : b = s.bank
  · rw [if_pos h, h]
  · rw [if_neg h]

theorem depth_storeFrame (n : Nesting) (s : Slot) (f : Frame) :
    (n.storeFrame s f).depth = n.depth := by
  funext i
  rw [depth, depth, storeFrame, getElem_setBank]
  by_cases h : s.bank = i
  · subst h
    rw [if_pos rfl]
  · rw [if_neg h]

/-- To store a frame changes the slot that it is stored in and no other. -/
theorem slotFrame_storeFrame (n : Nesting) {s : Slot} (h : s.position < slotCount) (t : Slot)
    (f : Frame) : (n.storeFrame s f).slotFrame t = if s = t then f else n.slotFrame t := by
  rw [slotFrame, slotFrame, storeFrame, getElem_setBank]
  obtain ⟨i, p⟩ := s
  obtain ⟨j, q⟩ := t
  by_cases hbank : i = j
  · subst hbank
    rw [if_pos rfl, Vector.getElem?_setIfInBounds]
    by_cases hposition : p = q
    · rw [if_pos hposition, if_pos h, if_pos (by rw [hposition])]
      rfl
    · have hst : (⟨i, p⟩ : Slot) ≠ ⟨i, q⟩ := fun e => hposition (congrArg Slot.position e)
      rw [if_neg hposition, if_neg hst]
  · have hst : (⟨i, p⟩ : Slot) ≠ ⟨j, q⟩ := fun e => hbank (congrArg Slot.bank e)
    rw [if_neg hbank, if_neg hst]

/-- Two nestings have the same limit and the same slots outside of one bank. -/
structure SameBut (b : Fin bankCount) (n n' : Nesting) : Prop where
  limit : n'.limit = n.limit
  depth {i : Fin bankCount} : i ≠ b → n'.depth i = n.depth i
  slotFrame {s : Slot} : s.bank ≠ b → n'.slotFrame s = n.slotFrame s

theorem SameBut.refl (b : Fin bankCount) (n : Nesting) : SameBut b n n :=
  ⟨rfl, fun _ => rfl, fun _ => rfl⟩

theorem sameBut_withDepth (n : Nesting) (b : Fin bankCount) (d : Nat) :
    SameBut b n (n.withDepth b d) where
  limit := rfl
  depth hi := by rw [depth_withDepth, Function.update_of_ne hi]
  slotFrame _ := slotFrame_withDepth _ _ _ _

theorem sameBut_storeFrame (n : Nesting) {s : Slot} (h : s.position < slotCount) (f : Frame) :
    SameBut s.bank n (n.storeFrame s f) where
  limit := rfl
  depth _ := by rw [depth_storeFrame]
  slotFrame {t} ht := by
    rw [slotFrame_storeFrame n h, if_neg (fun e : s = t => ht (congrArg Slot.bank e).symm)]

@[simp] theorem depth_withDepth_self (n : Nesting) (b : Fin bankCount) (d : Nat) :
    (n.withDepth b d).depth b = d := by
  rw [depth_withDepth, Function.update_self]

/-- One depth more or less is one open slot more or less. -/
theorem opened_withDepth (n : Nesting) (b : Fin bankCount) (d : Nat) :
    (n.withDepth b d).opened + n.depth b = n.opened + d := by
  have hrest := Finset.sum_erase_add Finset.univ n.depth (Finset.mem_univ b)
  rw [opened, opened, depth_withDepth, Finset.sum_update_of_mem (Finset.mem_univ b),
    Finset.sdiff_singleton_eq_erase]
  omega

theorem opened_storeFrame (n : Nesting) (s : Slot) (f : Frame) :
    (n.storeFrame s f).opened = n.opened := by
  rw [opened, depth_storeFrame, opened]

theorem depth_le_opened (n : Nesting) (b : Fin bankCount) : n.depth b ≤ n.opened :=
  Finset.single_le_sum_of_canonicallyOrdered (Finset.mem_univ b)

/-! ### Requests -/

theorem claim_of_le (h : n.limit ≤ level) :
    n.claim level core = ((.overflow, none), level, n) := by
  rw [claim, enter, if_pos h]

theorem enter_of_lt (h : level < n.limit) :
    n.enter level core = some (⟨bankOf core, n.depth (bankOf core)⟩, level + 1,
      n.withDepth (bankOf core) (n.depth (bankOf core) + 1)) := by
  rw [enter, if_neg (Nat.not_le.2 h)]
  rfl

theorem claim_of_lt (h : level < n.limit) :
    n.claim level core = ((.ok, some ⟨bankOf core, n.depth (bankOf core)⟩), level + 1,
      n.withDepth (bankOf core) (n.depth (bankOf core) + 1)) := by
  rw [claim, enter_of_lt h]

theorem giveBack_of_zero (h : n.depth (bankOf core) = 0) :
    n.giveBack level core = (.underflow, level, n) := by
  have hrefused : ((n.bank core).depth = 0 || level = 0) = true := by simp [depth_eq, h]
  rw [giveBack, leave, if_pos hrefused]

theorem leave_of_pos (h : n.depth (bankOf core) ≠ 0) (hlevel : level ≠ 0) :
    n.leave level core =
      some (level - 1, n.withDepth (bankOf core) (n.depth (bankOf core) - 1)) := by
  have hgranted : ¬((n.bank core).depth = 0 || level = 0) = true := by simp [depth_eq, h, hlevel]
  rw [leave, if_neg hgranted]
  rfl

theorem giveBack_of_pos (h : n.depth (bankOf core) ≠ 0) (hlevel : level ≠ 0) :
    n.giveBack level core =
      (.ok, level - 1, n.withDepth (bankOf core) (n.depth (bankOf core) - 1)) := by
  rw [giveBack, leave_of_pos h hlevel]

/-! ### Reading back -/

theorem frame?_eq_none_iff {k : Nat} :
    n.frame? k core = none ↔ k = 0 ∨ n.depth (bankOf core) < k := by
  have hguard : (k = 0 || (n.bank core).depth < k) = true ↔ k = 0 ∨ n.depth (bankOf core) < k := by
    rw [Bool.or_eq_true, decide_eq_true_iff, decide_eq_true_iff, depth_eq]
  rw [← hguard, frame?]
  split
  · rename_i h
    exact iff_of_true rfl h
  · rename_i h
    exact iff_of_false (Option.some_ne_none _) h

theorem frame?_of_le {k : Nat} (hpos : k ≠ 0) (h : k ≤ n.depth (bankOf core)) :
    n.frame? k core = some (n.slotFrame ⟨bankOf core, k - 1⟩) := by
  cases hframe : n.frame? k core with
  | none =>
    rcases frame?_eq_none_iff.1 hframe with rfl | hlt
    · exact absurd rfl hpos
    · omega
  | some f =>
    rw [frame?] at hframe
    split at hframe
    · cases hframe
    · exact hframe.symm

end Nesting

end Supervisor
