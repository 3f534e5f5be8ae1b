/-
The count that all nestings share.

Several nestings claim slots from banks of their own, and each holds its limit against the one count
of all traps in progress.  The count is the number of open slots of all of them.  It therefore stays
above every depth and below the size of a bank, so that a claim never runs past the end of a bank.

* `Nestings` — the shared count with the nestings; `Nestings.after` — one call on them;
* `Nestings.Sound` — what every call keeps up;
* `Nestings.claim_of_lt`, `Nestings.Sound.giveBack_of_pos` — which requests are granted;
* `run_stays_within_bounds` — the bounds after any calls.
-/
import Supervisor.Proofs.Nesting.Depth

namespace Supervisor

/-- Nestings that share one count of traps in progress. -/
structure Nestings (ι : Type) where
  level : Nat := 0
  nesting : ι → Nesting := fun _ => {}

namespace Nestings

variable {ι : Type} [DecidableEq ι]

/-- Replaces the count and one nesting. -/
def put (s : Nestings ι) (i : ι) (level : Nat) (n : Nesting) : Nestings ι :=
  ⟨level, Function.update s.nesting i n⟩

/-- A request for a slot of one nesting. -/
def claim (s : Nestings ι) (i : ι) (core : UInt32) :
    (ContextStatus × Option Slot) × Nestings ι :=
  let (answer, level, n) := (s.nesting i).claim s.level core
  (answer, s.put i level n)

/-- A request to take back a slot of one nesting. -/
def giveBack (s : Nestings ι) (i : ι) (core : UInt32) : ContextStatus × Nestings ι :=
  let (status, level, n) := (s.nesting i).giveBack s.level core
  (status, s.put i level n)

/-- Changes one nesting and leaves the count. -/
def change (s : Nestings ι) (i : ι) (f : Nesting → Nesting) : Nestings ι :=
  s.put i s.level (f (s.nesting i))

/-- A call on one of the nestings. -/
inductive Act (ι : Type) where
  | claim (i : ι) (core : UInt32)
  | giveBack (i : ι) (core : UInt32)
  | setLimit (i : ι) (limit : Nat)
  /-- Whoever was given a slot stores a frame in it. -/
  | store (i : ι) (slot : Slot) (f : Frame)
  | attach (i : ι) (images : Bool)

/-- The nestings after a call. -/
def after (s : Nestings ι) : Act ι → Nestings ι
  | .claim i core => (s.claim i core).2
  | .giveBack i core => (s.giveBack i core).2
  | .setLimit i limit => s.change i (·.setLimit limit)
  | .store i slot f => s.change i (·.storeFrame slot f)
  | .attach i images => s.change i fun n => { n with attached := images }

/-- The nestings after some calls. -/
def run (s : Nestings ι) (acts : List (Act ι)) : Nestings ι := acts.foldl after s

@[simp] theorem level_put (s : Nestings ι) (i : ι) (level : Nat) (n : Nesting) :
    (s.put i level n).level = level := rfl

@[simp] theorem nesting_put_self (s : Nestings ι) (i : ι) (level : Nat) (n : Nesting) :
    (s.put i level n).nesting i = n := by
  show Function.update s.nesting i n i = n
  rw [Function.update_self]

theorem nesting_put_of_ne (s : Nestings ι) {i j : ι} (h : j ≠ i) (level : Nat) (n : Nesting) :
    (s.put i level n).nesting j = s.nesting j := by
  show Function.update s.nesting i n j = s.nesting j
  rw [Function.update_of_ne h]

/-- To put back what is there changes nothing. -/
@[simp] theorem put_self (s : Nestings ι) (i : ι) : s.put i s.level (s.nesting i) = s := by
  rw [put, Function.update_eq_self]

theorem change_put (s : Nestings ι) (i : ι) (level : Nat) (n : Nesting) (f : Nesting → Nesting) :
    (s.put i level n).change i f = s.put i level (f n) := by
  rw [change, nesting_put_self]
  show (⟨level, Function.update (Function.update s.nesting i n) i (f n)⟩ : Nestings ι) = _
  rw [Function.update_idem]
  rfl

/-! ### Requests -/

theorem claim_of_le {s : Nestings ι} {i : ι} (h : (s.nesting i).limit ≤ s.level) (core : UInt32) :
    s.claim i core = ((.overflow, none), s) := by
  rw [claim, Nesting.claim_of_le h]
  exact congrArg _ (s.put_self i)

/-- Below the limit the next slot of the bank is granted. -/
theorem claim_of_lt {s : Nestings ι} {i : ι} (h : s.level < (s.nesting i).limit) (core : UInt32) :
    let b := Nesting.bankOf core
    let d := (s.nesting i).depth b
    s.claim i core =
      ((.ok, some ⟨b, d⟩), s.put i (s.level + 1) ((s.nesting i).withDepth b (d + 1))) := by
  intro b d
  rw [claim, Nesting.claim_of_lt h]

theorem giveBack_of_zero {s : Nestings ι} {i : ι} {core : UInt32}
    (h : (s.nesting i).depth (Nesting.bankOf core) = 0) : s.giveBack i core = (.underflow, s) := by
  rw [giveBack, Nesting.giveBack_of_zero h]
  exact congrArg _ (s.put_self i)

/-! ### What every call keeps up -/

variable [Fintype ι]

/-- The shared count is the number of open slots, no limit is above the size of a bank, and neither
is the count. -/
structure Sound (s : Nestings ι) : Prop where
  level_eq : s.level = ∑ i, (s.nesting i).opened
  limit_le (i : ι) : (s.nesting i).limit ≤ slotCount
  level_le : s.level ≤ slotCount

namespace Sound

variable {s : Nestings ι}

omit [DecidableEq ι] in
theorem depth_le (h : s.Sound) (i : ι) (b : Fin bankCount) : (s.nesting i).depth b ≤ s.level := by
  rw [h.level_eq]
  exact ((s.nesting i).depth_le_opened b).trans
    (Finset.single_le_sum (fun j _ => Nat.zero_le (s.nesting j).opened) (Finset.mem_univ i))

/-- What one nesting has open more or less is what there is open more or less in all. -/
theorem sum_put (s : Nestings ι) (i : ι) (level : Nat) (n : Nesting) :
    (∑ j, ((s.put i level n).nesting j).opened) + (s.nesting i).opened =
      (∑ j, (s.nesting j).opened) + n.opened := by
  have hupdate : (fun j => ((s.put i level n).nesting j).opened) =
      Function.update (fun j => (s.nesting j).opened) i n.opened := by
    funext j
    by_cases hj : j = i
    · subst hj
      rw [nesting_put_self, Function.update_self]
    · rw [nesting_put_of_ne s hj, Function.update_of_ne hj]
  have hrest := Finset.sum_erase_add Finset.univ (fun j => (s.nesting j).opened) (Finset.mem_univ i)
  rw [hupdate, Finset.sum_update_of_mem (Finset.mem_univ i), Finset.sdiff_singleton_eq_erase]
  omega

/-- A nesting may be replaced along with the count, if both change by the same number of slots. -/
theorem put (h : s.Sound) {i : ι} {level : Nat} {n : Nesting}
    (hopened : level + (s.nesting i).opened = s.level + n.opened) (hlimit : n.limit ≤ slotCount)
    (hlevel : level ≤ slotCount) : (s.put i level n).Sound where
  level_eq := by
    have hsum := sum_put s i level n
    have hbefore := h.level_eq
    show level = _
    omega
  limit_le j := by
    by_cases hj : j = i
    · subst hj
      rwa [nesting_put_self]
    · rw [nesting_put_of_ne s hj]
      exact h.limit_le j
  level_le := hlevel

omit [DecidableEq ι] in
/-- The slot that is granted below the limit is there. -/
theorem depth_lt (h : s.Sound) {i : ι} (hlt : s.level < (s.nesting i).limit) (b : Fin bankCount) :
    (s.nesting i).depth b < slotCount :=
  calc (s.nesting i).depth b ≤ s.level := h.depth_le i b
    _ < (s.nesting i).limit := hlt
    _ ≤ slotCount := h.limit_le i

/-- A bank that has slots open makes the count positive, so the last of them is taken back. -/
theorem giveBack_of_pos (h : s.Sound) {i : ι} {core : UInt32}
    (hpos : (s.nesting i).depth (Nesting.bankOf core) ≠ 0) :
    let b := Nesting.bankOf core
    s.level ≠ 0 ∧ s.giveBack i core =
      (.ok, s.put i (s.level - 1) ((s.nesting i).withDepth b ((s.nesting i).depth b - 1))) := by
  intro b
  have hlevel : s.level ≠ 0 := by
    have hle : (s.nesting i).depth b ≤ s.level := h.depth_le i b
    exact fun hzero => hpos (Nat.le_zero.1 (hzero ▸ hle))
  refine ⟨hlevel, ?_⟩
  rw [Nestings.giveBack, Nesting.giveBack_of_pos hpos hlevel]

theorem claim (h : s.Sound) (i : ι) (core : UInt32) : (s.claim i core).2.Sound := by
  by_cases hlt : s.level < (s.nesting i).limit
  · have hclaim := claim_of_lt hlt core
    have hopened := (s.nesting i).opened_withDepth (Nesting.bankOf core)
      ((s.nesting i).depth (Nesting.bankOf core) + 1)
    have hlimit := h.limit_le i
    rw [hclaim]
    exact h.put (by omega) hlimit (by omega)
  · rw [claim_of_le (Nat.not_lt.1 hlt)]
    exact h

theorem giveBack (h : s.Sound) (i : ι) (core : UInt32) : (s.giveBack i core).2.Sound := by
  by_cases hzero : (s.nesting i).depth (Nesting.bankOf core) = 0
  · rw [giveBack_of_zero hzero]
    exact h
  · obtain ⟨hlevel, hback⟩ := h.giveBack_of_pos hzero
    have hopened := (s.nesting i).opened_withDepth (Nesting.bankOf core)
      ((s.nesting i).depth (Nesting.bankOf core) - 1)
    have hle := h.level_le
    rw [hback]
    exact h.put (by omega) (h.limit_le i) (by omega)

/-- A change that opens and closes nothing is of no account, unless it raises the limit too far. -/
theorem change (h : s.Sound) {i : ι} {f : Nesting → Nesting}
    (hopened : (f (s.nesting i)).opened = (s.nesting i).opened)
    (hlimit : (f (s.nesting i)).limit ≤ slotCount) : (s.change i f).Sound :=
  h.put (by rw [hopened]) hlimit h.level_le

theorem after (h : s.Sound) (a : Act ι) : (s.after a).Sound := by
  cases a with
  | claim i core => exact h.claim i core
  | giveBack i core => exact h.giveBack i core
  | setLimit i limit =>
    show (s.change i (·.setLimit limit)).Sound
    exact h.change rfl (Nat.min_le_right _ _)
  | store i slot f =>
    show (s.change i (·.storeFrame slot f)).Sound
    exact h.change (Nesting.opened_storeFrame _ slot f) (h.limit_le i)
  | attach i images =>
    show (s.change i fun n => { n with attached := images }).Sound
    exact h.change rfl (h.limit_le i)

theorem run (h : s.Sound) (acts : List (Act ι)) : (s.run acts).Sound := by
  induction acts generalizing s with
  | nil => exact h
  | cons a acts ih => exact ih (h.after a)

end Sound

omit [DecidableEq ι] in
/-- Before any call nothing is open. -/
theorem sound_empty : ({} : Nestings ι).Sound where
  level_eq := by
    have hnone : ({} : Nesting).opened = 0 := by decide
    simp only [hnone, Finset.sum_const_zero]
  limit_le _ := by
    show defaultNestLimit ≤ slotCount
    decide
  level_le := Nat.zero_le _

/-- **The slots stay within their bounds.**  After any calls on any nestings, whatever the harts and
the limits, the shared count is the sum of all depths.  No depth is above the count, and the count
is never above the size of a bank, so the bytes in use never exceed the bytes there are.  A claim is
refused exactly when the count has reached the limit of its nesting, and otherwise grants a slot
that is there.  To give back is refused exactly when the bank of the hart has nothing open; that the
count were zero in a bank that has something open does not happen.  Whatever is refused changes
nothing, and a claim that is refused grants no slot. -/
theorem run_stays_within_bounds (acts : List (Act ι)) :
    let s := ({} : Nestings ι).run acts
    s.level = ∑ i, ∑ b, (s.nesting i).depth b ∧
    s.level ≤ slotCount ∧
    ∀ i core,
      ((s.nesting i).bank core).depth ≤ s.level ∧
      (s.nesting i).usedBytes core ≤ interruptStackSize ∧
      ((s.claim i core).1.1 = .overflow ↔ (s.nesting i).limit ≤ s.level) ∧
      (∀ slot, (s.claim i core).1 = (.ok, some slot) → slot.position < slotCount) ∧
      ((s.claim i core).1.1 ≠ .ok → s.claim i core = ((.overflow, none), s)) ∧
      ((s.claim i core).1.1 = .ok → ∃ slot, (s.claim i core).1.2 = some slot) ∧
      ((s.giveBack i core).1 = .underflow ↔ ((s.nesting i).bank core).depth = 0) ∧
      (((s.nesting i).bank core).depth ≠ 0 → s.level ≠ 0) ∧
      ((s.giveBack i core).1 ≠ .ok → s.giveBack i core = (.underflow, s)) := by
  intro s
  have sound : s.Sound := sound_empty.run acts
  refine ⟨sound.level_eq, sound.level_le, fun i core => ?_⟩
  have hdepth : ((s.nesting i).bank core).depth ≤ s.level := sound.depth_le i (Nesting.bankOf core)
  have hused : (s.nesting i).usedBytes core ≤ interruptStackSize := by
    calc ((s.nesting i).bank core).depth * frameSize ≤ slotCount * frameSize :=
          Nat.mul_le_mul_right _ (hdepth.trans sound.level_le)
      _ ≤ interruptStackSize := by decide
  refine ⟨hdepth, hused, ?_⟩
  have hgive : ((s.giveBack i core).1 = .underflow ↔ ((s.nesting i).bank core).depth = 0) ∧
      (((s.nesting i).bank core).depth ≠ 0 → s.level ≠ 0) ∧
      ((s.giveBack i core).1 ≠ .ok → s.giveBack i core = (.underflow, s)) := by
    by_cases hzero : ((s.nesting i).bank core).depth = 0
    · have hback := giveBack_of_zero (s := s) hzero
      exact ⟨iff_of_true (by rw [hback]) hzero, fun h => absurd hzero h, fun _ => hback⟩
    · obtain ⟨hlevel, hback⟩ := sound.giveBack_of_pos hzero
      rw [hback]
      exact ⟨iff_of_false (by simp) hzero, fun _ => hlevel, fun h => absurd rfl h⟩
  by_cases hlt : s.level < (s.nesting i).limit
  · have hclaim := claim_of_lt hlt core
    rw [hclaim]
    refine ⟨iff_of_false (by simp) (Nat.not_le.2 hlt), ?_, fun h => absurd rfl h, fun _ => ⟨_, rfl⟩,
      hgive⟩
    intro slot hslot
    obtain rfl : _ = slot := Option.some.inj (congrArg Prod.snd hslot)
    exact sound.depth_lt hlt _
  · have hclaim := claim_of_le (Nat.not_lt.1 hlt) core
    rw [hclaim]
    exact ⟨iff_of_true rfl (Nat.not_lt.1 hlt), fun _ h => by simp at h, fun _ => rfl,
      fun h => by simp at h, hgive⟩

end Nestings

end Supervisor
