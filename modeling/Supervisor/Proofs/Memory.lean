/-
Copies between regions of one block.

Copying goes one byte at a time on the block as it stands, so a step may read a byte that an
earlier one has overwritten.  It does not as long as no step's target is the source of a later one.
Whether that is so depends on the order of the steps: upward it is when the target lies below the
source, downward when it lies above, and in any order when the regions do not overlap.

* `Copied` — of the steps of a copy some were taken: their bytes have arrived as they were at the
  beginning, and nothing else has changed;
* `Copied.step` — one more step, whose source is still unwritten;
* `Copied.run`, `copied_foldl` — any sequence of steps in which no target is a later source;
* `copied_copy`, `copied_copyDown`, `copied_move` — the two loops, and the choice between them;
* `move_copies_at_once` — a move leaves what a copy by way of a second block would leave.
-/
import Supervisor.Memory
import Mathlib.Data.List.Basic

namespace Supervisor.Memory

/-- The block `m'` is what the block `m` becomes by the steps `done` of a copy from `source` to
`target`: each byte has arrived as it was in `m`, and the bytes that are no step's target are
kept. -/
structure Copied (m : Block) (target source : Nat) (done : List Nat) (m' : Block) : Prop where
  length_eq : m'.length = m.length
  arrived : ∀ i ∈ done, m'[target + i]? = m[source + i]?
  kept : ∀ p, (∀ i ∈ done, p ≠ target + i) → m'[p]? = m[p]?

section

variable {m m' : Block} {target source : Nat} {done : List Nat}

/-- A step whose source was no target so far copies the byte that was there at the beginning. -/
theorem Copied.step (h : Copied m target source done m') {i : Nat}
    (htarget : target + i < m.length) (hsource : source + i < m.length)
    (unwritten : ∀ j ∈ done, source + i ≠ target + j) :
    Copied m target source (done ++ [i]) (copyByte target source m' i) := by
  have hread : m'[source + i]? = m[source + i]? := h.kept _ unwritten
  have hbyte : m'.getD (source + i) 0 = m[source + i] := by
    rw [List.getD_eq_getElem?_getD, hread, List.getElem?_eq_getElem hsource, Option.getD_some]
  rw [copyByte, hbyte]
  constructor
  · rw [List.length_set, h.length_eq]
  · intro j hj
    by_cases hji : j = i
    · subst hji
      rw [List.getElem?_set_self (h.length_eq ▸ htarget), List.getElem?_eq_getElem hsource]
    · rw [List.mem_append, List.mem_singleton] at hj
      rw [List.getElem?_set_ne (by omega)]
      exact h.arrived j (hj.resolve_right hji)
  · intro p hp
    have hpi : p ≠ target + i := hp i (List.mem_append_right done List.mem_cons_self)
    rw [List.getElem?_set_ne hpi.symm]
    exact h.kept p fun j hj => hp j (List.mem_append_left [i] hj)

/-- Steps in an order in which no target is a later source. -/
theorem Copied.run (h : Copied m target source done m') {steps : List Nat}
    (inside : ∀ i ∈ steps, target + i < m.length ∧ source + i < m.length)
    (order : (done ++ steps).Pairwise fun j i => source + i ≠ target + j) :
    Copied m target source (done ++ steps) (steps.foldl (copyByte target source) m') := by
  induction steps generalizing done m' with
  | nil => rwa [List.append_nil]
  | cons i steps ih =>
    have hinside := inside i List.mem_cons_self
    have unwritten : ∀ j ∈ done, source + i ≠ target + j := fun j hj =>
      (List.pairwise_append.1 order).2.2 j hj i List.mem_cons_self
    rw [List.append_cons] at order ⊢
    exact ih (h.step hinside.1 hinside.2 unwritten)
      (fun k hk => inside k (List.mem_cons_of_mem i hk)) order

/-- The steps of a whole copy, in such an order. -/
theorem copied_foldl {steps : List Nat}
    (inside : ∀ i ∈ steps, target + i < m.length ∧ source + i < m.length)
    (order : steps.Pairwise fun j i => source + i ≠ target + j) :
    Copied m target source steps (steps.foldl (copyByte target source) m) := by
  have hnone : Copied m target source [] m :=
    ⟨rfl, fun _ h => absurd h List.not_mem_nil, fun _ _ => rfl⟩
  exact hnone.run inside order

/-- The order of the steps does not show in what they leave. -/
theorem Copied.of_mem_iff (h : Copied m target source done m') {steps : List Nat}
    (hmem : ∀ i, i ∈ steps ↔ i ∈ done) : Copied m target source steps m' :=
  ⟨h.length_eq, fun i hi => h.arrived i ((hmem i).1 hi),
    fun p hp => h.kept p fun i hi => hp i ((hmem i).2 hi)⟩

/-- The steps determine the block that they leave. -/
theorem Copied.unique {m₁ m₂ : Block} (h₁ : Copied m target source done m₁)
    (h₂ : Copied m target source done m₂) : m₁ = m₂ := by
  refine List.ext_getElem? fun p => ?_
  by_cases hp : ∃ i ∈ done, p = target + i
  · obtain ⟨i, hi, rfl⟩ := hp
    rw [h₁.arrived i hi, h₂.arrived i hi]
  · have hoff : ∀ i ∈ done, p ≠ target + i := fun i hi e => hp ⟨i, hi, e⟩
    rw [h₁.kept p hoff, h₂.kept p hoff]

end

/-! ### The loops -/

section

variable {m : Block} {target source count : Nat}

/-- Upward, with the target below the source or apart from it. -/
theorem copied_copy (htarget : target + count ≤ m.length) (hsource : source + count ≤ m.length)
    (h : target < source ∨ target + count ≤ source ∨ source + count ≤ target) :
    Copied m target source (List.range count) (copy m target source count) := by
  refine copied_foldl (fun i hi => ?_) (List.pairwise_lt_range.imp_of_mem fun hj hi hji => ?_)
  · rw [List.mem_range] at hi
    omega
  · rw [List.mem_range] at hi hj
    omega

/-- Downward, with the target above the source. -/
theorem copied_copyDown (htarget : target + count ≤ m.length) (h : source < target) :
    Copied m target source (List.range count) (copyDown m target source count) := by
  have hdown : Copied m target source (List.range count).reverse
      (copyDown m target source count) := by
    refine copied_foldl (fun i hi => ?_) (List.pairwise_reverse.2 ?_)
    · rw [List.mem_reverse, List.mem_range] at hi
      omega
    · exact List.pairwise_lt_range.imp fun hij => by omega
  exact hdown.of_mem_iff fun i => List.mem_reverse.symm

/-- The order that a move chooses is one in which no target is a later source. -/
theorem copied_move (htarget : target + count ≤ m.length) (hsource : source + count ≤ m.length) :
    Copied m target source (List.range count) (move m target source count) := by
  rw [move]
  by_cases hbelow : target < source
  · rw [if_pos hbelow]
    exact copied_copy htarget hsource (.inl hbelow)
  · rw [if_neg hbelow]
    by_cases habove : source < target
    · rw [if_pos habove]
      exact copied_copyDown htarget habove
    · -- the regions are one, and its bytes are where they should be
      rw [if_neg habove]
      obtain rfl : target = source := by omega
      exact ⟨rfl, fun _ _ => rfl, fun _ _ => rfl⟩

end

/-- **A move copies all bytes at once.**  For two regions inside a block, however they overlap, it
leaves at the target the bytes that stood at the source before, and every byte outside the target as
it was.  When the regions do not overlap it leaves what copying upward leaves. -/
theorem move_copies_at_once {m : Block} {target source count : Nat}
    (htarget : target + count ≤ m.length) (hsource : source + count ≤ m.length) :
    (∀ i < count, (move m target source count)[target + i]? = m[source + i]?) ∧
    (∀ p, p < target ∨ target + count ≤ p → (move m target source count)[p]? = m[p]?) ∧
    (target + count ≤ source ∨ source + count ≤ target →
      move m target source count = copy m target source count) := by
  have hmove := copied_move htarget hsource
  refine ⟨fun i hi => ?_, fun p hp => ?_, fun apart => ?_⟩
  · exact hmove.arrived i (List.mem_range.2 hi)
  · refine hmove.kept p fun i hi => ?_
    rw [List.mem_range] at hi
    omega
  · exact hmove.unique (copied_copy htarget hsource (.inr apart))

/-- Five bytes move two places up over themselves, where copying upward would repeat the first two;
four bytes move to a place of their own. -/
theorem bytes_move_up :
    let m : Block := [1, 2, 3, 4, 5, 6, 7, 8]
    (2 + 5 ≤ m.length ∧ 0 + 5 ≤ m.length ∧
      move m 2 0 5 = [1, 2, 1, 2, 3, 4, 5, 8] ∧ copy m 2 0 5 = [1, 2, 1, 2, 1, 2, 1, 8] ∧
      (∀ i < 5, (move m 2 0 5)[2 + i]? = m[0 + i]?) ∧ (move m 2 0 5)[7]? = m[7]?) ∧
    (4 + 4 ≤ m.length ∧ 0 + 4 ≤ m.length ∧ 0 + 4 ≤ 4 ∧ move m 4 0 4 = copy m 4 0 4) := by
  intro m
  have hover := @move_copies_at_once m 2 0 5 (by decide) (by decide)
  have hapart := @move_copies_at_once m 4 0 4 (by decide) (by decide)
  exact ⟨⟨by decide, by decide, by decide, by decide, hover.1, hover.2.1 7 (by decide)⟩,
    by decide, by decide, by decide, hapart.2.2 (by decide)⟩

end Supervisor.Memory
