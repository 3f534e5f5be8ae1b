/-
Scopes that hold frame slots.

A trap holds a slot from its beginning to its end, and so does a guarded section, or whoever claims
a slot and gives it back later.  Scopes stand inside one another: the one that was begun last is the
one that is ended first.  What is open is then told by the list of the claims that are held, newest
first, and every step changes the depths exactly as it changes this list.

* `Claim` — a slot that is held, for a trap along with its frame;
* `Scopes.Step` — what may happen while some scopes are open;
* `Scopes.Composed` — a well-nested composition of scopes, inside of others;
* `Scopes.Accounted` — the depths, the shared count and the stored frames are what the open claims
  make of them; `Accounted.step`, `Accounted.run` — they stay so;
* `Accounted.giveBack` — the newest claim can be given back;
* `Accounted.frame?_of_trap` — a trap in progress finds its frame in its slot.

Design notes: a slot that was claimed by request may be written to as long as it is held.  The slot
of a trap is not handed out to anybody.
-/
import Supervisor.Proofs.Nesting.Bounds
import Mathlib.Logic.Relation

namespace Supervisor

open Relation (ReflTransGen)

variable {ι : Type}

/-- A slot that is held. -/
structure Claim (ι : Type) where
  /-- Which nesting the slot belongs to. -/
  party : ι
  core : UInt32
  position : Nat
  /-- The frame that is kept in the slot, if a trap holds it. -/
  frame : Option Frame

namespace Claim

/-- The bank of the slot. -/
def bank (c : Claim ι) : Fin bankCount := Nesting.bankOf c.core

/-- The slot itself. -/
def slot (c : Claim ι) : Slot := ⟨c.bank, c.position⟩

variable [DecidableEq ι]

/-- How many slots of a bank are held. -/
def held (claims : List (Claim ι)) (i : ι) (b : Fin bankCount) : Nat :=
  claims.countP fun c => c.party = i ∧ c.bank = b

theorem held_cons_self (c : Claim ι) (claims : List (Claim ι)) :
    held (c :: claims) c.party c.bank = held claims c.party c.bank + 1 :=
  List.countP_cons_of_pos (by simp)

theorem held_cons_of_ne {c : Claim ι} {i : ι} {b : Fin bankCount} (h : ¬(c.party = i ∧ c.bank = b))
    (claims : List (Claim ι)) : held (c :: claims) i b = held claims i b :=
  List.countP_cons_of_neg (by simpa using h)

end Claim

/-! ### Changes of one nesting, seen from all of them -/

namespace Nestings

variable [DecidableEq ι]

theorem depth_put_withDepth (s : Nestings ι) (i : ι) (b : Fin bankCount) (d level : Nat) (j : ι)
    (a : Fin bankCount) :
    ((s.put i level ((s.nesting i).withDepth b d)).nesting j).depth a =
      if i = j ∧ b = a then d else (s.nesting j).depth a := by
  by_cases hi : i = j
  · subst hi
    rw [nesting_put_self, Nesting.depth_withDepth, Function.update_apply]
    simp only [true_and, eq_comm]
  · rw [nesting_put_of_ne s (Ne.symm hi), if_neg fun h => hi h.1]

theorem slotFrame_put_withDepth (s : Nestings ι) (i : ι) (b : Fin bankCount) (d level : Nat) (j : ι)
    (t : Slot) :
    ((s.put i level ((s.nesting i).withDepth b d)).nesting j).slotFrame t =
      (s.nesting j).slotFrame t := by
  by_cases hi : j = i
  · subst hi
    rw [nesting_put_self, Nesting.slotFrame_withDepth]
  · rw [nesting_put_of_ne s hi]

theorem depth_store (s : Nestings ι) (i : ι) (t : Slot) (f : Frame) (j : ι) :
    ((s.change i (·.storeFrame t f)).nesting j).depth = (s.nesting j).depth := by
  by_cases hi : j = i
  · subst hi
    rw [change, nesting_put_self, Nesting.depth_storeFrame]
  · rw [change, nesting_put_of_ne s hi]

theorem slotFrame_store (s : Nestings ι) (i : ι) {t : Slot} (h : t.position < slotCount) (f : Frame)
    (j : ι) (u : Slot) :
    ((s.change i (·.storeFrame t f)).nesting j).slotFrame u =
      if i = j ∧ t = u then f else (s.nesting j).slotFrame u := by
  by_cases hi : i = j
  · subst hi
    rw [change, nesting_put_self, Nesting.slotFrame_storeFrame _ h]
    simp only [true_and]
  · rw [change, nesting_put_of_ne s (Ne.symm hi), if_neg fun e => hi e.1]

/-- What was granted is the next slot of the bank. -/
theorem granted {s s' : Nestings ι} {i : ι} {core : UInt32}
    {slot : Slot} (hclaim : s.claim i core = ((.ok, some slot), s')) :
    slot = ⟨Nesting.bankOf core, (s.nesting i).depth (Nesting.bankOf core)⟩ ∧
      s' = s.put i (s.level + 1) ((s.nesting i).withDepth (Nesting.bankOf core)
        ((s.nesting i).depth (Nesting.bankOf core) + 1)) := by
  by_cases hlt : s.level < (s.nesting i).limit
  · have hgranted := claim_of_lt hlt core
    rw [hclaim] at hgranted
    exact ⟨Option.some.inj (congrArg (·.1.2) hgranted), congrArg Prod.snd hgranted⟩
  · rw [claim_of_le (Nat.not_lt.1 hlt)] at hclaim
    cases congrArg (·.1.1) hclaim

/-- What was refused has changed nothing. -/
theorem eq_of_refused {s s' : Nestings ι} {i : ι} {core : UInt32}
    (h : s.claim i core = ((.overflow, none), s')) : s' = s := by
  by_cases hlt : s.level < (s.nesting i).limit
  · rw [claim_of_lt hlt] at h
    cases congrArg (·.1.1) h
  · rw [claim_of_le (Nat.not_lt.1 hlt)] at h
    exact (congrArg Prod.snd h).symm

/-- Nothing is opened, closed or stored.  A limit may be set, though not beyond the size of a
bank. -/
structure Calm (s s' : Nestings ι) : Prop where
  level : s'.level = s.level
  banks (i : ι) : (s'.nesting i).banks = (s.nesting i).banks
  limit_le (i : ι) : (s.nesting i).limit ≤ slotCount → (s'.nesting i).limit ≤ slotCount

namespace Calm

variable {s s' : Nestings ι}

omit [DecidableEq ι] in
theorem depth (h : s.Calm s') (i : ι) : (s'.nesting i).depth = (s.nesting i).depth := by
  funext b
  rw [Nesting.depth, Nesting.depth, h.banks i]

omit [DecidableEq ι] in
theorem slotFrame (h : s.Calm s') (i : ι) (t : Slot) :
    (s'.nesting i).slotFrame t = (s.nesting i).slotFrame t := by
  rw [Nesting.slotFrame, Nesting.slotFrame, h.banks i]

omit [DecidableEq ι] in
theorem sound [Fintype ι] (h : s.Calm s') (hs : s.Sound) : s'.Sound where
  level_eq := by
    have hopened (i : ι) : (s'.nesting i).opened = (s.nesting i).opened := by
      rw [Nesting.opened, Nesting.opened, h.depth i]
    rw [h.level, hs.level_eq]
    exact Finset.sum_congr rfl fun i _ => (hopened i).symm
  limit_le i := h.limit_le i (hs.limit_le i)
  level_le := by
    rw [h.level]
    exact hs.level_le

end Calm

end Nestings

/-! ### Compositions -/

/-- The claims that are open, newest first, and the nestings at some point. -/
structure Scopes (ι : Type) where
  claims : List (Claim ι) := []
  nestings : Nestings ι

namespace Scopes

variable [DecidableEq ι]

/-- What may happen next. -/
inductive Step : Scopes ι → Scopes ι → Prop
  /-- Something that is not concerned with slots. -/
  | calm {claims : List (Claim ι)} {s s' : Nestings ι} (h : s.Calm s') :
      Step ⟨claims, s⟩ ⟨claims, s'⟩
  /-- A slot is claimed by request. -/
  | claim {claims : List (Claim ι)} {s s' : Nestings ι} {i : ι} {core : UInt32} {slot : Slot}
      (h : s.claim i core = ((.ok, some slot), s')) :
      Step ⟨claims, s⟩ ⟨⟨i, core, slot.position, none⟩ :: claims, s'⟩
  /-- A trap claims a slot and stores its frame. -/
  | trap {claims : List (Claim ι)} {s s' : Nestings ι} {i : ι} {core : UInt32} {slot : Slot}
      (h : s.claim i core = ((.ok, some slot), s')) (f : Frame) :
      Step ⟨claims, s⟩
        ⟨⟨i, core, slot.position, some f⟩ :: claims, s'.change i (·.storeFrame slot f)⟩
  /-- Something is stored in a slot that was claimed by request. -/
  | store {claims : List (Claim ι)} {s : Nestings ι} {c : Claim ι} (hc : c ∈ claims)
      (hnone : c.frame = none) (f : Frame) :
      Step ⟨claims, s⟩ ⟨claims, s.change c.party (·.storeFrame c.slot f)⟩
  /-- The newest claim is given back. -/
  | giveBack (c : Claim ι) (claims : List (Claim ι)) (s : Nestings ι) :
      Step ⟨c :: claims, s⟩ ⟨claims, (s.giveBack c.party c.core).2⟩

/-- From `s` to `s'` all scopes that were begun were ended, inside of some claims. -/
def Composed (claims : List (Claim ι)) (s s' : Nestings ι) : Prop :=
  ReflTransGen Step ⟨claims, s⟩ ⟨claims, s'⟩

/-! ### What the claims account for -/

/-- Each claim is to the slot that was next when it was made. -/
def Placed (start : Nestings ι) : List (Claim ι) → Prop
  | [] => True
  | c :: older =>
    c.position = (start.nesting c.party).depth c.bank + Claim.held older c.party c.bank ∧
      Placed start older

namespace Placed

variable {start : Nestings ι} {claims : List (Claim ι)}

theorem position_lt (h : Placed start claims) {c : Claim ι} (hc : c ∈ claims) :
    c.position < (start.nesting c.party).depth c.bank + Claim.held claims c.party c.bank := by
  induction claims with
  | nil => cases hc
  | cons d older ih =>
    obtain ⟨hd, holder⟩ := h
    rcases List.mem_cons.1 hc with rfl | hc
    · rw [Claim.held_cons_self, hd]
      omega
    · have hlt := ih holder hc
      have hle : Claim.held older c.party c.bank ≤ Claim.held (d :: older) c.party c.bank :=
        List.Sublist.countP_le (List.sublist_cons_self d older)
      omega

/-- No slot is held twice. -/
theorem pairwise (h : Placed start claims) :
    claims.Pairwise fun c d => ¬(c.party = d.party ∧ c.slot = d.slot) := by
  induction claims with
  | nil => exact .nil
  | cons c older ih =>
    obtain ⟨hc, holder⟩ := h
    refine .cons ?_ (ih holder)
    rintro d hd ⟨hparty, hslot⟩
    -- an older claim in the same bank is to a slot below the new one
    have hlt := holder.position_lt hd
    have hbank : c.bank = d.bank := congrArg Slot.bank hslot
    have hposition : c.position = d.position := congrArg Slot.position hslot
    rw [hparty, hbank] at hc
    omega

/-- A slot that is not held by a trap is not the slot of a trap. -/
theorem slot_ne (h : Placed start claims) {c d : Claim ι} (hc : c ∈ claims) (hd : d ∈ claims)
    {f : Frame} (hnone : c.frame = none) (hsome : d.frame = some f) :
    ¬(c.party = d.party ∧ c.slot = d.slot) := by
  have hne : c ≠ d := by
    rintro rfl
    rw [hnone] at hsome
    cases hsome
  have : Std.Symm fun c d : Claim ι => ¬(c.party = d.party ∧ c.slot = d.slot) :=
    ⟨fun _ _ h e => h ⟨e.1.symm, e.2.symm⟩⟩
  exact h.pairwise.forall hc hd hne

end Placed

/-- The nestings are what the open claims have made of them since the start. -/
structure Accounted [Fintype ι] (start : Nestings ι) (claims : List (Claim ι)) (s : Nestings ι) :
    Prop where
  sound : s.Sound
  placed : Placed start claims
  level : s.level = start.level + claims.length
  depth (i : ι) (b : Fin bankCount) :
    (s.nesting i).depth b = (start.nesting i).depth b + Claim.held claims i b
  frame {c : Claim ι} {f : Frame} : c ∈ claims → c.frame = some f →
    (s.nesting c.party).slotFrame c.slot = f

namespace Accounted

variable [Fintype ι] {start s s' : Nestings ι} {claims : List (Claim ι)}

theorem refl (h : start.Sound) : Accounted start [] start where
  sound := h
  placed := trivial
  level := rfl
  depth _ _ := rfl
  frame hc := nomatch hc

/-- What is held is open. -/
theorem position_lt_depth (h : Accounted start claims s) {c : Claim ι} (hc : c ∈ claims) :
    c.position < (s.nesting c.party).depth c.bank := by
  rw [h.depth]
  exact h.placed.position_lt hc

theorem position_lt (h : Accounted start claims s) {c : Claim ι} (hc : c ∈ claims) :
    c.position < slotCount :=
  calc c.position < (s.nesting c.party).depth c.bank := h.position_lt_depth hc
    _ ≤ s.level := h.sound.depth_le c.party c.bank
    _ ≤ slotCount := h.sound.level_le

theorem calm (h : Accounted start claims s) (hcalm : s.Calm s') : Accounted start claims s' where
  sound := hcalm.sound h.sound
  placed := h.placed
  level := hcalm.level.trans h.level
  depth i b := by rw [hcalm.depth i, h.depth]
  frame hc hf := by rw [hcalm.slotFrame, h.frame hc hf]

theorem claim (h : Accounted start claims s) {i : ι} {core : UInt32} {slot : Slot}
    (hclaim : s.claim i core = ((.ok, some slot), s')) :
    Accounted start (⟨i, core, slot.position, none⟩ :: claims) s' := by
  have hsound : s'.Sound := by
    have := h.sound.claim i core
    rwa [hclaim] at this
  obtain ⟨rfl, rfl⟩ := Nestings.granted hclaim
  set c : Claim ι := ⟨i, core, (s.nesting i).depth (Nesting.bankOf core), none⟩ with hc
  refine ⟨hsound, ⟨h.depth i c.bank, h.placed⟩, ?_, fun j b => ?_, fun {d f} hd hf => ?_⟩
  · rw [Nestings.level_put, h.level, List.length_cons, Nat.add_assoc]
  · rw [Nestings.depth_put_withDepth]
    by_cases hin : i = j ∧ Nesting.bankOf core = b
    · obtain ⟨rfl, rfl⟩ := hin
      rw [if_pos ⟨rfl, rfl⟩, h.depth, Nat.add_assoc]
      exact congrArg _ (Claim.held_cons_self c claims).symm
    · rw [if_neg hin, h.depth, Claim.held_cons_of_ne (c := c) hin]
  · rw [Nestings.slotFrame_put_withDepth]
    rcases List.mem_cons.1 hd with rfl | hd
    · cases hf
    · exact h.frame hd hf

theorem store (h : Accounted start claims s) {c : Claim ι} (hc : c ∈ claims)
    (hnone : c.frame = none) (f : Frame) :
    Accounted start claims (s.change c.party (·.storeFrame c.slot f)) where
  sound := h.sound.change (Nesting.opened_storeFrame _ c.slot f) (h.sound.limit_le c.party)
  placed := h.placed
  level := h.level
  depth i b := by rw [Nestings.depth_store, h.depth]
  frame hd hf := by
    have hposition : c.slot.position < slotCount := h.position_lt hc
    rw [Nestings.slotFrame_store s c.party hposition, if_neg (h.placed.slot_ne hc hd hnone hf)]
    exact h.frame hd hf

/-- The newest claim becomes that of a trap once the frame is in its slot. -/
theorem keep {i : ι} {core : UInt32} {position : Nat} {f : Frame}
    (h : Accounted start (⟨i, core, position, none⟩ :: claims) s)
    (hf : (s.nesting i).slotFrame ⟨Nesting.bankOf core, position⟩ = f) :
    Accounted start (⟨i, core, position, some f⟩ :: claims) s where
  sound := h.sound
  placed := h.placed
  level := h.level
  depth := h.depth
  frame hd hg := by
    rcases List.mem_cons.1 hd with rfl | hd
    · rw [← Option.some.inj hg]
      exact hf
    · exact h.frame (List.mem_cons_of_mem _ hd) hg

theorem trap (h : Accounted start claims s) {i : ι} {core : UInt32} {slot : Slot}
    (hclaim : s.claim i core = ((.ok, some slot), s')) (f : Frame) :
    Accounted start (⟨i, core, slot.position, some f⟩ :: claims)
      (s'.change i (·.storeFrame slot f)) := by
  have hclaimed := h.claim hclaim
  have hposition : slot.position < slotCount := hclaimed.position_lt List.mem_cons_self
  obtain ⟨hslot, -⟩ := Nestings.granted hclaim
  obtain ⟨b, position⟩ := slot
  obtain rfl : b = Nesting.bankOf core := congrArg Slot.bank hslot
  refine (hclaimed.store List.mem_cons_self rfl f).keep ?_
  show ((s'.change i (·.storeFrame ⟨Nesting.bankOf core, position⟩ f)).nesting i).slotFrame
    ⟨Nesting.bankOf core, position⟩ = f
  rw [Nestings.slotFrame_store s' i hposition, if_pos ⟨rfl, rfl⟩]

/-- The newest claim can be given back, and then the older ones account for what is left. -/
theorem giveBack {c : Claim ι} (h : Accounted start (c :: claims) s) :
    (s.giveBack c.party c.core).1 = .ok ∧
      Accounted start claims (s.giveBack c.party c.core).2 := by
  have hopen : (s.nesting c.party).depth c.bank ≠ 0 :=
    Nat.ne_zero_of_lt (h.position_lt_depth List.mem_cons_self)
  have hsound := h.sound.giveBack c.party c.core
  have hback : s.giveBack c.party c.core = (.ok, s.put c.party (s.level - 1)
      ((s.nesting c.party).withDepth c.bank ((s.nesting c.party).depth c.bank - 1))) :=
    (h.sound.giveBack_of_pos hopen).2
  rw [hback] at hsound ⊢
  refine ⟨rfl, hsound, h.placed.2, ?_, fun i b => ?_, fun hd hf => ?_⟩
  · have hlevel := h.level
    rw [List.length_cons] at hlevel
    rw [Nestings.level_put]
    omega
  · rw [Nestings.depth_put_withDepth]
    by_cases hin : c.party = i ∧ c.bank = b
    · obtain ⟨rfl, rfl⟩ := hin
      have hdepth := h.depth c.party c.bank
      rw [Claim.held_cons_self] at hdepth
      rw [if_pos ⟨rfl, rfl⟩]
      omega
    · have hdepth := h.depth i b
      rw [Claim.held_cons_of_ne hin] at hdepth
      rw [if_neg hin, hdepth]
  · rw [Nestings.slotFrame_put_withDepth]
    exact h.frame (List.mem_cons_of_mem _ hd) hf

theorem step {p q : Scopes ι} (h : Accounted start p.claims p.nestings) (hstep : Step p q) :
    Accounted start q.claims q.nestings := by
  cases hstep with
  | calm hcalm => exact h.calm hcalm
  | claim hclaim => exact h.claim hclaim
  | trap hclaim f => exact h.trap hclaim f
  | store hc hnone f => exact h.store hc hnone f
  | giveBack c claims s => exact h.giveBack.2

theorem run {p q : Scopes ι} (h : Accounted start p.claims p.nestings)
    (hrun : ReflTransGen Step p q) : Accounted start q.claims q.nestings := by
  induction hrun with
  | refl => exact h
  | tail _ hstep ih => exact ih.step hstep

/-- A trap in progress finds its frame in the slot that it was given. -/
theorem frame?_of_trap (h : Accounted start claims s) {c : Claim ι} (hc : c ∈ claims) {f : Frame}
    (hf : c.frame = some f) : (s.nesting c.party).frame? (c.position + 1) c.core = some f := by
  have hopen : c.position + 1 ≤ (s.nesting c.party).depth (Nesting.bankOf c.core) :=
    h.position_lt_depth hc
  rw [Nesting.frame?_of_le (Nat.succ_ne_zero _) hopen]
  exact congrArg some (h.frame hc hf)

end Accounted

end Scopes

end Supervisor
