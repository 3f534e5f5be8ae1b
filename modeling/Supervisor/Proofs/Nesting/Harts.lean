/-
Every hart has a stack of its own.

Harts that fold onto different banks claim slots of one nesting, store frames in the slots that they
were given, and give the slots back, in any order among each other.  Each of them then sees a stack
that nobody else touches.  Only the count of traps in progress is shared.

* `Harts`, `Harts.step` — the harts on the slots of one nesting;
* `Stacks`, `Stacks.step` — a stack for each hart;
* `Harts.Agrees` — how the two correspond, which every step keeps up (`Harts.Agrees.step`);
* `harts_have_stacks_of_their_own` — the whole of it, after any interleaving.

Design notes: a frame is stored some time after its slot was granted, and other harts may go on in
between.  On a stack, the place of a frame that is still to be stored holds nothing.
-/
import Supervisor.Proofs.Nesting.Depth

namespace Supervisor

open Nesting (bankOf)

/-- What a hart does next. -/
inductive HartStep where
  | claim (core : UInt32)
  /-- Stores a frame in the slot that it was given by the `k`-th of its claims that are open,
  counted from zero. -/
  | store (core : UInt32) (k : Nat) (f : Frame)
  | giveBack (core : UInt32)

/-- The hart that takes a step. -/
def HartStep.core : HartStep → UInt32
  | claim core | store core _ _ | giveBack core => core

/-- Harts on the slots of one nesting. -/
structure Harts where
  level : Nat
  nesting : Nesting
  /-- The slots that each hart was given and has not given back, in the order of its claims. -/
  held : UInt32 → List Slot

/-- A stack for each hart, with the count that they share and its limit. -/
structure Stacks where
  level : Nat
  limit : Nat
  /-- The frames of each hart, the first at the bottom. -/
  stack : UInt32 → List (Option Frame)

/-- The harts before the first claim, when others have `base` traps in progress. -/
def Harts.start (base limit : Nat) : Harts where
  level := base
  nesting := ({} : Nesting).setLimit limit
  held _ := []

/-- The stacks before the first claim, when others have `base` traps in progress. -/
def Stacks.start (base limit : Nat) : Stacks where
  level := base
  limit := min (max limit 1) slotCount
  stack _ := []

/-- One step: how it went, and the harts after it. -/
def Harts.step (s : Harts) : HartStep → ContextStatus × Harts
  | .claim core =>
    let ((status, slot), level, nesting) := s.nesting.claim s.level core
    (status, ⟨level, nesting, Function.update s.held core (s.held core ++ slot.toList)⟩)
  | .store core k f =>
    match (s.held core)[k]? with
    | none => (.invalid, s)
    | some slot => (.ok, { s with nesting := s.nesting.storeFrame slot f })
  | .giveBack core =>
    match s.nesting.giveBack s.level core with
    | (.ok, level, nesting) =>
      (.ok, ⟨level, nesting, Function.update s.held core (s.held core).dropLast⟩)
    | (status, level, nesting) => (status, ⟨level, nesting, s.held⟩)

/-- One step: how it went, and the stacks after it. -/
def Stacks.step (t : Stacks) : HartStep → ContextStatus × Stacks
  | .claim core =>
    if t.limit ≤ t.level then (.overflow, t)
    else (.ok, ⟨t.level + 1, t.limit, Function.update t.stack core (t.stack core ++ [none])⟩)
  | .store core k f =>
    if k < (t.stack core).length then
      (.ok, { t with stack := Function.update t.stack core ((t.stack core).set k (some f)) })
    else (.invalid, t)
  | .giveBack core =>
    if t.stack core = [] then (.underflow, t)
    else (.ok, ⟨t.level - 1, t.limit, Function.update t.stack core (t.stack core).dropLast⟩)

/-- Steps one after the other: how they went, and the harts after them. -/
def Harts.run (s : Harts) : List HartStep → List ContextStatus × Harts
  | [] => ([], s)
  | a :: steps =>
    let (statuses, last) := (s.step a).2.run steps
    ((s.step a).1 :: statuses, last)

/-- Steps one after the other: how they went, and the stacks after them. -/
def Stacks.run (t : Stacks) : List HartStep → List ContextStatus × Stacks
  | [] => ([], t)
  | a :: steps =>
    let (statuses, last) := (t.step a).2.run steps
    ((t.step a).1 :: statuses, last)

/-- Harts of which no two fold onto one bank. -/
def ApartInBanks (harts : Set UInt32) : Prop :=
  ∀ c ∈ harts, ∀ d ∈ harts, c.toNat % bankCount = d.toNat % bankCount → c = d

theorem ApartInBanks.bankOf_ne {harts : Set UInt32} (h : ApartInBanks harts) {c d : UInt32}
    (hc : c ∈ harts) (hd : d ∈ harts) (hne : c ≠ d) : bankOf c ≠ bankOf d :=
  fun e => hne (h c hc d hd (congrArg Fin.val e))

namespace Harts

variable {harts : Set UInt32} {base : Nat} {s : Harts} {t : Stacks}

/-- The slots stand for the stacks: what a hart holds are the open slots of its bank from the first
on, as many as its stack is high, and a frame on the stack is the one in its slot. -/
structure Agrees (harts : Set UInt32) (base : Nat) (s : Harts) (t : Stacks) : Prop where
  level : s.level = t.level
  limit : s.nesting.limit = t.limit
  limit_le : s.nesting.limit ≤ slotCount
  level_eq : s.level = base + s.nesting.opened
  depth_le (b : Fin bankCount) : s.nesting.depth b ≤ slotCount
  held : ∀ c ∈ harts,
    s.held c = (List.range (s.nesting.depth (bankOf c))).map fun p => ⟨bankOf c, p⟩
  length : ∀ c ∈ harts, (t.stack c).length = s.nesting.depth (bankOf c)
  stored : ∀ c ∈ harts, ∀ {k f}, (t.stack c)[k]? = some (some f) →
    s.nesting.slotFrame ⟨bankOf c, k⟩ = f

theorem depth_start (limit : Nat) (b : Fin bankCount) :
    (({} : Nesting).setLimit limit).depth b = 0 :=
  Nat.le_zero.1 (({} : Nesting).depth_le_opened b)

theorem agrees_start (harts : Set UInt32) (base limit : Nat) :
    Agrees harts base (start base limit) (.start base limit) where
  level := rfl
  limit := rfl
  limit_le := Nat.min_le_right _ _
  level_eq := by
    have hnone : (({} : Nesting).setLimit limit).opened = 0 :=
      Finset.sum_eq_zero fun b _ => depth_start limit b
    show base = base + (({} : Nesting).setLimit limit).opened
    rw [hnone, Nat.add_zero]
  depth_le b := by
    show (({} : Nesting).setLimit limit).depth b ≤ slotCount
    rw [depth_start]
    exact Nat.zero_le _
  held c _ := by
    show [] = (List.range ((({} : Nesting).setLimit limit).depth (bankOf c))).map _
    rw [depth_start]
    rfl
  length c _ := (depth_start limit (bankOf c)).symm
  stored c _ _ _ h := by cases h

namespace Agrees

/-! ### One step -/

theorem getElem?_held (h : Agrees harts base s t) {c : UInt32} (hc : c ∈ harts) (k : Nat) :
    (s.held c)[k]? = if k < (t.stack c).length then some ⟨bankOf c, k⟩ else none := by
  rw [h.held c hc, h.length c hc, List.getElem?_map]
  by_cases hk : k < s.nesting.depth (bankOf c)
  · rw [List.getElem?_range hk, if_pos hk]
    rfl
  · rw [List.getElem?_eq_none (by simpa using hk), if_neg hk]
    rfl

/-- A step that changes only the bank of a hart concerns only the stack of that hart. -/
theorem ofHart (h : Agrees harts base s t) (apart : ApartInBanks harts) {core : UInt32}
    (hcore : core ∈ harts) {level : Nat} {n : Nesting} {slots : List Slot}
    {stack : List (Option Frame)} (hn : Nesting.SameBut (bankOf core) s.nesting n)
    (hlevel : level + s.nesting.opened = s.level + n.opened)
    (hdepth : n.depth (bankOf core) ≤ slotCount)
    (hslots : slots = (List.range (n.depth (bankOf core))).map fun p => ⟨bankOf core, p⟩)
    (hlength : stack.length = n.depth (bankOf core))
    (hstored : ∀ {k f}, stack[k]? = some (some f) → n.slotFrame ⟨bankOf core, k⟩ = f) :
    Agrees harts base ⟨level, n, Function.update s.held core slots⟩
      ⟨level, t.limit, Function.update t.stack core stack⟩ where
  level := rfl
  limit := hn.limit.trans h.limit
  limit_le := hn.limit.symm ▸ h.limit_le
  level_eq := by
    have hbefore := h.level_eq
    show level = base + n.opened
    omega
  depth_le b := by
    show n.depth b ≤ slotCount
    by_cases hb : b = bankOf core
    · rw [hb]
      exact hdepth
    · rw [hn.depth hb]
      exact h.depth_le b
  held c hc := by
    show Function.update s.held core slots c = (List.range (n.depth (bankOf c))).map _
    by_cases hne : c = core
    · rw [hne, Function.update_self, hslots]
    · rw [Function.update_of_ne hne, hn.depth (apart.bankOf_ne hc hcore hne), h.held c hc]
  length c hc := by
    show (Function.update t.stack core stack c).length = n.depth (bankOf c)
    by_cases hne : c = core
    · rw [hne, Function.update_self, hlength]
    · rw [Function.update_of_ne hne, hn.depth (apart.bankOf_ne hc hcore hne), h.length c hc]
  stored c hc k f hk := by
    show n.slotFrame ⟨bankOf c, k⟩ = f
    replace hk : (Function.update t.stack core stack c)[k]? = some (some f) := hk
    by_cases hne : c = core
    · rw [hne, Function.update_self] at hk
      rw [hne]
      exact hstored hk
    · rw [Function.update_of_ne hne] at hk
      rw [hn.slotFrame (apart.bankOf_ne hc hcore hne)]
      exact h.stored c hc hk

/-- What a step keeps up: both sides give the same answer and agree after it, and the banks of the
other harts are as they were. -/
def Keeps (harts : Set UInt32) (base : Nat) (s : Harts) (t : Stacks) (a : HartStep) : Prop :=
  (s.step a).1 = (t.step a).1 ∧
    Agrees harts base (s.step a).2 (t.step a).2 ∧
    Nesting.SameBut (bankOf a.core) s.nesting (s.step a).2.nesting ∧
    ∀ c ≠ a.core, (s.step a).2.held c = s.held c

/-- A claim puts an empty place on the stack of the hart, unless the count is at the limit. -/
theorem claim (h : Agrees harts base s t) (apart : ApartInBanks harts) {core : UInt32}
    (hcore : core ∈ harts) : Keeps harts base s t (.claim core) := by
  have hlimit : t.limit ≤ t.level ↔ s.nesting.limit ≤ s.level := by rw [h.limit, h.level]
  rw [Keeps, step, Stacks.step]
  by_cases hle : s.nesting.limit ≤ s.level
  · rw [Nesting.claim_of_le hle, if_pos (hlimit.2 hle)]
    refine ⟨rfl, ?_, .refl _ _, fun c hc => Function.update_of_ne hc _ _⟩
    show Agrees harts base ⟨_, _, Function.update s.held core (s.held core ++ [])⟩ t
    rw [List.append_nil, Function.update_eq_self]
    exact h
  · have hlt : s.level < s.nesting.limit := Nat.not_le.1 hle
    rw [Nesting.claim_of_lt hlt, if_neg (hlimit.not.2 hle), ← h.level]
    have hopened := s.nesting.opened_withDepth (bankOf core) (s.nesting.depth (bankOf core) + 1)
    refine ⟨rfl, ?_, s.nesting.sameBut_withDepth _ _, fun c hc => Function.update_of_ne hc _ _⟩
    refine h.ofHart apart hcore (s.nesting.sameBut_withDepth _ _) (by omega) ?_ ?_ ?_ ?_
    · rw [Nesting.depth_withDepth_self]
      have hbound := s.nesting.depth_le_opened (bankOf core)
      have hlevel := h.level_eq
      have hroom := h.limit_le
      omega
    · rw [Nesting.depth_withDepth_self, List.range_succ, List.map_append, h.held core hcore]
      rfl
    · rw [Nesting.depth_withDepth_self, List.length_append, h.length core hcore]
      rfl
    · intro k f hk
      rw [Nesting.slotFrame_withDepth]
      -- the new place holds nothing yet, so the frame was on the stack before
      rw [List.getElem?_append] at hk
      split at hk
      · exact h.stored core hcore hk
      · rw [List.getElem?_singleton] at hk
        split at hk <;> cases hk

/-- A frame is stored in the slot that stands for its place on the stack. -/
theorem store (h : Agrees harts base s t) (apart : ApartInBanks harts) {core : UInt32}
    (hcore : core ∈ harts) (k : Nat) (f : Frame) : Keeps harts base s t (.store core k f) := by
  rw [Keeps, step, Stacks.step, h.getElem?_held hcore k]
  by_cases hk : k < (t.stack core).length
  · rw [if_pos hk, if_pos hk]
    have hposition : k < slotCount := by
      have hdepth := h.depth_le (bankOf core)
      rw [← h.length core hcore] at hdepth
      omega
    have hsame := s.nesting.sameBut_storeFrame (s := ⟨bankOf core, k⟩) hposition f
    refine ⟨rfl, ?_, hsame, fun c _ => rfl⟩
    show Agrees harts base ⟨s.level, _, s.held⟩ ⟨t.level, t.limit, _⟩
    rw [← h.level, ← Function.update_eq_self core s.held]
    refine h.ofHart apart hcore hsame ?_ ?_ ?_ ?_ ?_
    · rw [Nesting.opened_storeFrame]
    · rw [Nesting.depth_storeFrame]
      exact h.depth_le _
    · rw [Nesting.depth_storeFrame]
      exact h.held core hcore
    · rw [Nesting.depth_storeFrame, List.length_set]
      exact h.length core hcore
    · intro j g hj
      rw [List.getElem?_set] at hj
      rw [Nesting.slotFrame_storeFrame _ hposition]
      by_cases hkj : k = j
      · subst hkj
        rw [if_pos rfl, if_pos hk] at hj
        rw [if_pos rfl]
        injection hj with hj
        injection hj
      · have hslot : (⟨bankOf core, k⟩ : Slot) ≠ ⟨bankOf core, j⟩ :=
          fun e => hkj (congrArg Slot.position e)
        rw [if_neg hkj] at hj
        rw [if_neg hslot]
        exact h.stored core hcore hj
  · rw [if_neg hk, if_neg hk]
    exact ⟨rfl, h, .refl _ _, fun _ _ => rfl⟩

/-- The place on top of the stack goes, if there is one. -/
theorem giveBack (h : Agrees harts base s t) (apart : ApartInBanks harts) {core : UInt32}
    (hcore : core ∈ harts) : Keeps harts base s t (.giveBack core) := by
  have hlength := h.length core hcore
  rw [Keeps, step, Stacks.step]
  by_cases hzero : s.nesting.depth (bankOf core) = 0
  · have hempty : t.stack core = [] := List.length_eq_zero_iff.1 (hlength.trans hzero)
    rw [Nesting.giveBack_of_zero hzero, if_pos hempty]
    exact ⟨rfl, h, .refl _ _, fun _ _ => rfl⟩
  · have hopen : t.stack core ≠ [] := fun e => hzero (by rw [← hlength, e]; rfl)
    have hbound := s.nesting.depth_le_opened (bankOf core)
    have hlevel := h.level_eq
    rw [Nesting.giveBack_of_pos hzero (by omega), if_neg hopen, ← h.level]
    have hopened := s.nesting.opened_withDepth (bankOf core) (s.nesting.depth (bankOf core) - 1)
    refine ⟨rfl, ?_, s.nesting.sameBut_withDepth _ _, fun c hc => Function.update_of_ne hc _ _⟩
    refine h.ofHart apart hcore (s.nesting.sameBut_withDepth _ _) (by omega) ?_ ?_ ?_ ?_
    · rw [Nesting.depth_withDepth_self]
      exact (Nat.sub_le _ _).trans (h.depth_le _)
    · obtain ⟨d, hd⟩ := Nat.exists_eq_succ_of_ne_zero hzero
      rw [Nesting.depth_withDepth_self, h.held core hcore, hd, List.range_succ, List.map_append]
      exact List.dropLast_concat
    · rw [Nesting.depth_withDepth_self, List.length_dropLast, hlength]
    · intro k f hk
      rw [List.getElem?_dropLast] at hk
      rw [Nesting.slotFrame_withDepth]
      split at hk
      · exact h.stored core hcore hk
      · cases hk

theorem step (h : Agrees harts base s t) (apart : ApartInBanks harts) {a : HartStep}
    (ha : a.core ∈ harts) : Keeps harts base s t a := by
  cases a with
  | claim core => exact h.claim apart ha
  | store core k f => exact h.store apart ha k f
  | giveBack core => exact h.giveBack apart ha

/-- After any interleaving both sides have given the same answers and still agree. -/
theorem run (h : Agrees harts base s t) (apart : ApartInBanks harts) {steps : List HartStep}
    (hsteps : ∀ a ∈ steps, a.core ∈ harts) :
    (s.run steps).1 = (t.run steps).1 ∧ Agrees harts base (s.run steps).2 (t.run steps).2 := by
  induction steps generalizing s t with
  | nil => exact ⟨rfl, h⟩
  | cons a steps ih =>
    obtain ⟨hanswer, hafter, -, -⟩ := h.step apart (hsteps a List.mem_cons_self)
    obtain ⟨hanswers, hlast⟩ := ih hafter fun b hb => hsteps b (List.mem_cons_of_mem a hb)
    refine ⟨?_, hlast⟩
    show (s.step a).1 :: ((s.step a).2.run steps).1 = (t.step a).1 :: ((t.step a).2.run steps).1
    rw [hanswer, hanswers]

/-! ### What a hart reads -/

theorem frame?_eq_none_iff (h : Agrees harts base s t) {c : UInt32} (hc : c ∈ harts) (k : Nat) :
    s.nesting.frame? k c = none ↔ k = 0 ∨ (t.stack c).length < k := by
  rw [Nesting.frame?_eq_none_iff, h.length c hc]

theorem frame?_of_stored (h : Agrees harts base s t) {c : UInt32} (hc : c ∈ harts) {k : Nat}
    {f : Frame} (hk : (t.stack c)[k]? = some (some f)) : s.nesting.frame? (k + 1) c = some f := by
  have hlt : k < s.nesting.depth (bankOf c) := by
    rw [← h.length c hc]
    exact (List.getElem?_eq_some_iff.1 hk).1
  rw [Nesting.frame?_of_le (Nat.succ_ne_zero k) hlt]
  exact congrArg some (h.stored c hc hk)

/-- What is held by a hart tells which hart it is, and in which of its claims it was given. -/
theorem held_injective (h : Agrees harts base s t) (apart : ApartInBanks harts) {c d : UInt32}
    (hc : c ∈ harts) (hd : d ∈ harts) {i j : Nat} {slot : Slot}
    (hi : (s.held c)[i]? = some slot) (hj : (s.held d)[j]? = some slot) : c = d ∧ i = j := by
  rw [h.getElem?_held hc] at hi
  rw [h.getElem?_held hd] at hj
  split at hi
  · split at hj
    · obtain rfl := Option.some.inj hi
      injection hj with hj
      injection hj with hbank hposition
      refine ⟨?_, hposition.symm⟩
      by_contra hne
      exact apart.bankOf_ne hc hd hne hbank.symm
    · cases hj
  · cases hi

end Agrees

end Harts

/-- What a nesting shows of one bank depends on that bank only. -/
theorem Nesting.SameBut.frame?_eq {b : Fin bankCount} {n n' : Nesting} (h : SameBut b n n')
    {core : UInt32} (hcore : bankOf core ≠ b) (k : Nat) : n'.frame? k core = n.frame? k core := by
  cases hframe : n.frame? k core with
  | none =>
    rw [Nesting.frame?_eq_none_iff] at hframe ⊢
    rwa [h.depth hcore]
  | some f =>
    have hsome : ¬(k = 0 ∨ n.depth (bankOf core) < k) := by
      rw [← Nesting.frame?_eq_none_iff, hframe]
      exact Option.some_ne_none f
    obtain ⟨hpos, hle⟩ := not_or.1 hsome
    rw [Nesting.frame?_of_le hpos (Nat.not_lt.1 hle)] at hframe
    rw [Nesting.frame?_of_le hpos (by rw [h.depth hcore]; exact Nat.not_lt.1 hle),
      h.slotFrame hcore, hframe]

open Harts in
/-- **Every hart has a stack of its own.**  Let harts of which no two fold onto one bank take any
steps on the slots of one nesting, in any interleaving, whatever its limit and however many traps
others have in progress.  Then every step is answered as if each hart had a stack to itself: a claim
is refused only when the shared count is at the limit, and to give back is refused only when the
hart's own stack is empty.  A hart reads back the frame that it stored at the `k`-th of its open
claims, and nothing at zero or above them.  What one hart does next changes neither what another one
holds nor what it reads.  No slot is held twice. -/
theorem harts_have_stacks_of_their_own {harts : Set UInt32} (apart : ApartInBanks harts)
    (base limit : Nat) {steps : List HartStep} (taken : ∀ a ∈ steps, a.core ∈ harts) :
    let s := ((start base limit).run steps).2
    let t := ((Stacks.start base limit).run steps).2
    ((start base limit).run steps).1 = ((Stacks.start base limit).run steps).1 ∧
    (∀ c ∈ harts,
      (s.held c).length = (t.stack c).length ∧
      (∀ k, s.nesting.frame? k c = none ↔ k = 0 ∨ (t.stack c).length < k) ∧
      ∀ k f, (t.stack c)[k]? = some (some f) → s.nesting.frame? (k + 1) c = some f) ∧
    (∀ a, a.core ∈ harts → ∀ c ∈ harts, c ≠ a.core →
      (s.step a).2.held c = s.held c ∧
      ∀ k, (s.step a).2.nesting.frame? k c = s.nesting.frame? k c) ∧
    ∀ c ∈ harts, ∀ d ∈ harts, ∀ (i j : Nat) (slot : Slot),
      (s.held c)[i]? = some slot → (s.held d)[j]? = some slot → c = d ∧ i = j := by
  intro s t
  obtain ⟨hanswers, h⟩ := (agrees_start harts base limit).run apart taken
  refine ⟨hanswers, fun c hc => ⟨?_, h.frame?_eq_none_iff hc, fun _ _ => h.frame?_of_stored hc⟩,
    fun a ha c hc hne => ?_, fun c hc d hd _ _ _ => h.held_injective apart hc hd⟩
  · rw [h.held c hc, h.length c hc, List.length_map, List.length_range]
  · obtain ⟨-, -, hsame, hheld⟩ := h.step apart ha
    exact ⟨hheld c hne, hsame.frame?_eq (apart.bankOf_ne hc ha hne)⟩

/-- Two harts that claim a slot each before either of them stores a frame.  The first then gives
back one slot more than it has. -/
def crossedSteps : List HartStep :=
  [.claim 0, .claim 5, .store 0 0 { sepc := 16 }, .store 5 0 { sepc := 32 }, .giveBack 0,
    .giveBack 0]

/-- The hart that gives back too much is refused, and the other one still reads its own frame. -/
theorem crossed_harts_keep_their_frames :
    ApartInBanks {0, 5} ∧
    ((Harts.start 0 8).run crossedSteps).1 = [.ok, .ok, .ok, .ok, .ok, .underflow] ∧
    ((Harts.start 0 8).run crossedSteps).2.nesting.frame? 1 5 = some { sepc := 32 } := by
  have apart : ApartInBanks {0, 5} := by
    rintro c (rfl | rfl) d (rfl | rfl) h
    · rfl
    · exact absurd h (by decide)
    · exact absurd h (by decide)
    · rfl
  have taken : ∀ a ∈ crossedSteps, a.core ∈ ({0, 5} : Set UInt32) := by
    simp [crossedSteps, HartStep.core]
  obtain ⟨hanswers, hreads, -⟩ := harts_have_stacks_of_their_own apart 0 8 taken
  refine ⟨apart, hanswers.trans rfl, ?_⟩
  obtain ⟨-, -, hframe⟩ := hreads 5 (.inr rfl)
  exact hframe 0 { sepc := 32 } rfl

end Supervisor
