/-
Harts that contend for a lock.

A hart takes a lock by two accesses to its words, and gives it back by two.  It may be interrupted
between them, and other harts go on meanwhile.

* `Contention` — a lock, and how far each hart has come with it;
* `Contention.Step` — one access of one hart;
* `Contention.Standing` — the four ways in which a lock stands at any time;
* `Contention.refused_unless_between` — a hart that has set the flag is turned away when it asks
  again, except between two accesses of one operation;
* `Contention.interrupted_hart_waits_for_itself` — what happens there.

Design notes: a failed attempt is an access that changes nothing.  A hart gives back only what it
has taken.
-/
import Mathlib.Logic.Function.Basic
import Mathlib.Logic.Relation
import Supervisor.Spinlock

namespace Supervisor

open Function (update update_self update_of_ne update_idem update_eq_self)
open Relation (ReflTransGen)
open Spinlock (Access)

/-- A lock, and how far each hart has come with it. -/
structure Contention where
  lock : Spinlock := {}
  /-- Which harts have set the flag and have not cleared it since. -/
  hasSet : UInt32 → Bool := fun _ => false
  /-- The accesses that are left of the operation that a hart has begun. -/
  left : UInt32 → List Access := fun _ => []

namespace Contention

/-- Whether a hart that does an access has set the flag after it, given whether it had before. -/
def marks : Access → Bool → Bool
  | .setFlag, _ => true
  | .clearFlag, _ => false
  | .recordOwner _, before => before

/-- The hart `c` does the first of some accesses, and the others are left. -/
def proceed (s : Contention) (c : UInt32) : List Access → Contention
  | [] => s
  | a :: rest =>
    { lock := a.apply s.lock
      hasSet := update s.hasSet c (marks a (s.hasSet c))
      left := update s.left c rest }

/-- One access of the hart `c`. -/
inductive Step (c : UInt32) : Contention → Contention → Prop
  /-- An attempt that finds the flag set. -/
  | fail {s} (taken : s.lock.flag = true) : Step c s s
  /-- An attempt that finds the flag clear, and sets it at once. -/
  | take {s} (idle : s.left c = []) (free : s.lock.flag = false) :
      Step c s (s.proceed c (Spinlock.acquisition c))
  | giveBack {s} (idle : s.left c = []) (taken : s.hasSet c = true) :
      Step c s (s.proceed c Spinlock.releasing)
  | next {s} (begun : s.left c ≠ []) : Step c s (s.proceed c (s.left c))

/-- Some accesses of some harts lead from one state to the other. -/
def Follows (harts : UInt32 → Prop) : Contention → Contention → Prop :=
  ReflTransGen fun s s' => ∃ c, harts c ∧ Step c s s'

/-- Some accesses of some harts lead from the free lock to a state. -/
def Reachable (s : Contention) : Prop := Follows (fun _ => True) {} s

/-- The hart `c` has set the flag and nobody else is concerned with the lock. -/
def alone (c : UInt32) (lock : Spinlock) (left : List Access) : Contention where
  lock := lock
  hasSet := update (fun _ => false) c true
  left := update (fun _ => []) c left

/-- How a lock stands: it is free, or one hart has set the flag and is before, between or after the
operations by which it takes the lock and gives it back. -/
inductive Standing : Contention → Prop
  | free : Standing {}
  | taking (c : UInt32) : Standing (alone c ⟨true, noOwner⟩ [.recordOwner c])
  | holding (c : UInt32) : Standing (alone c ⟨true, c⟩ [])
  | givingBack (c : UInt32) : Standing (alone c ⟨true, noOwner⟩ [.clearFlag])

variable {s s' : Contention} {c d : UInt32} {l : Spinlock} {accesses : List Access}

@[simp] theorem lock_alone : (alone c l accesses).lock = l := rfl

@[simp] theorem left_alone : (alone c l accesses).left c = accesses := by
  simp only [alone, update_self]

theorem eq_of_hasSet_alone (h : (alone c l accesses).hasSet d = true) : d = c := by
  by_contra hne
  have hclear : (alone c l accesses).hasSet d = false := by simp only [alone, update_of_ne hne]
  rw [hclear] at h
  cases h

theorem eq_of_left_alone (h : (alone c l accesses).left d ≠ []) : d = c := by
  by_contra hne
  exact h (by simp only [alone, update_of_ne hne])

/-- As long as the flag stays set, the next access of the only hart concerned leaves it the only
one. -/
theorem proceed_alone {a : Access} {rest : List Access} (h : marks a true = true) :
    (alone c l accesses).proceed c (a :: rest) = alone c (a.apply l) rest := by
  simp only [proceed, alone, update_self, update_idem, h]

/-- With the flag cleared nobody is concerned with the lock any more. -/
theorem proceed_alone_clearFlag :
    (alone c ⟨true, noOwner⟩ [.clearFlag]).proceed c [.clearFlag] = {} := by
  have hset : update (update (fun _ => false) c true) c false = fun _ => false := by
    rw [update_idem, update_eq_self]
  have hleft : update (update (fun _ => []) c [.clearFlag]) c ([] : List Access) = fun _ => [] := by
    rw [update_idem, update_eq_self]
  simp only [proceed, alone, marks, hset, hleft, Access.apply]

/-- Every access leads from one of the four states to one of them. -/
theorem Standing.step (h : Standing s) (hstep : Step d s s') : Standing s' := by
  -- nobody can take a lock whose flag is set, and nobody but its hart can go on with it
  cases h with
  | free =>
    cases hstep with
    | fail taken => cases taken
    | take => exact .taking d
    | giveBack _ taken => cases taken
    | next begun => exact absurd rfl begun
  | taking c =>
    cases hstep with
    | fail => exact .taking c
    | take _ free => cases free
    | giveBack idle taken =>
      obtain rfl := eq_of_hasSet_alone taken
      rw [left_alone] at idle
      cases idle
    | next begun =>
      obtain rfl := eq_of_left_alone begun
      rw [left_alone, proceed_alone rfl]
      exact .holding d
  | holding c =>
    cases hstep with
    | fail => exact .holding c
    | take _ free => cases free
    | giveBack _ taken =>
      obtain rfl := eq_of_hasSet_alone taken
      rw [Spinlock.releasing, proceed_alone rfl]
      exact .givingBack d
    | next begun =>
      obtain rfl := eq_of_left_alone begun
      exact absurd left_alone begun
  | givingBack c =>
    cases hstep with
    | fail => exact .givingBack c
    | take _ free => cases free
    | giveBack idle taken =>
      obtain rfl := eq_of_hasSet_alone taken
      rw [left_alone] at idle
      cases idle
    | next begun =>
      obtain rfl := eq_of_left_alone begun
      rw [left_alone, proceed_alone_clearFlag]
      exact .free

theorem Reachable.standing (h : Reachable s) : Standing s := by
  induction h with
  | refl => exact .free
  | tail _ hstep ih =>
    obtain ⟨c, -, hstep⟩ := hstep
    exact ih.step hstep

/-- While the only hart concerned is interrupted, the others can do nothing but fail. -/
theorem eq_alone_of_follows (hl : l.flag = true)
    (h : Follows (· ≠ c) (alone c l accesses) s) : s = alone c l accesses := by
  induction h with
  | refl => rfl
  | tail _ hstep ih =>
    obtain ⟨d, hd, hstep⟩ := hstep
    rw [ih] at hstep
    cases hstep with
    | fail => rfl
    | take _ free =>
      rw [lock_alone, hl] at free
      cases free
    | giveBack _ taken => exact absurd (eq_of_hasSet_alone taken) hd
    | next begun => exact absurd (eq_of_left_alone begun) hd

/-- **A hart that has set the flag is turned away when it asks again, except between two accesses
of one operation.**  In any state that harts can reach by accesses to a lock, one hart at most has
set the flag.  Let that be the hart `c`, let it be interrupted, and let the others do what they can
meanwhile.  If `c` has finished what it has begun, it is seen to hold the lock, and a request of the
interrupting code is refused.  If it stands between the two accesses by which it takes the lock or
gives it back, it is not seen to hold it, and the request waits, however long the others go on. -/
theorem refused_unless_between (reachable : Reachable s) (real : c ≠ noOwner)
    (taken : s.hasSet c = true) (meanwhile : Follows (· ≠ c) s s') :
    (∀ d, s.hasSet d = true → d = c) ∧
    (s.left c = [] ∨ s.left c = [.recordOwner c] ∨ s.left c = [.clearFlag]) ∧
    (s'.lock.isHeldBy c = true ↔ s.left c = []) ∧
    s'.lock.acquire c = if s.left c = [] then .refused else .waits := by
  cases reachable.standing with
  | free => cases taken
  | holding d =>
    obtain rfl := eq_of_hasSet_alone taken
    obtain rfl := eq_alone_of_follows rfl meanwhile
    refine ⟨fun _ => eq_of_hasSet_alone, .inl left_alone, ?_, ?_⟩
    · simp [Spinlock.isHeldBy]
    · simp [Spinlock.acquire, Spinlock.tryAcquire, Spinlock.isHeldBy]
  | taking d =>
    obtain rfl := eq_of_hasSet_alone taken
    obtain rfl := eq_alone_of_follows rfl meanwhile
    refine ⟨fun _ => eq_of_hasSet_alone, .inr (.inl left_alone), ?_, ?_⟩
    · simp [Spinlock.isHeldBy, real.symm]
    · simp [Spinlock.acquire, Spinlock.tryAcquire, Spinlock.isHeldBy, real.symm]
  | givingBack d =>
    obtain rfl := eq_of_hasSet_alone taken
    obtain rfl := eq_alone_of_follows rfl meanwhile
    refine ⟨fun _ => eq_of_hasSet_alone, .inr (.inr left_alone), ?_, ?_⟩
    · simp [Spinlock.isHeldBy, real.symm]
    · simp [Spinlock.acquire, Spinlock.tryAcquire, Spinlock.isHeldBy, real.symm]

/-- A lock that hart 1 has taken. -/
def takenByOne : Contention :=
  let begun := proceed {} 1 (Spinlock.acquisition 1)
  begun.proceed 1 (begun.left 1)

/-- Hart 1 is turned away when it asks again, though hart 2 has asked in vain before. -/
theorem hart_one_is_refused :
    Reachable takenByOne ∧ (1 : UInt32) ≠ noOwner ∧ takenByOne.hasSet 1 = true ∧
      Follows (· ≠ 1) takenByOne takenByOne ∧ takenByOne.lock.acquire 1 = .refused := by
  have reachable : Reachable takenByOne :=
    (ReflTransGen.single ⟨1, trivial, .take rfl rfl⟩).tail ⟨1, trivial, .next (by decide)⟩
  have meanwhile : Follows (· ≠ 1) takenByOne takenByOne :=
    .single ⟨2, by decide, .fail (by decide)⟩
  obtain ⟨-, -, -, hask⟩ := refused_unless_between reachable (by decide) (by decide) meanwhile
  rw [if_pos (by decide)] at hask
  exact ⟨reachable, by decide, by decide, meanwhile, hask⟩

/-- Hart 1 sets the flag and is interrupted, or takes the lock, begins to give it back and is
interrupted.  It has set the flag and not cleared it, and yet it is not seen to hold the lock, and
whatever interrupts it waits for the lock. -/
theorem interrupted_hart_waits_for_itself :
    let taking := proceed {} 1 (Spinlock.acquisition 1)
    let givingBack := takenByOne.proceed 1 Spinlock.releasing
    (Reachable taking ∧ taking.hasSet 1 = true ∧ taking.lock.isHeldBy 1 = false ∧
      taking.lock.acquire 1 = .waits) ∧
    Reachable givingBack ∧ givingBack.hasSet 1 = true ∧ givingBack.lock.isHeldBy 1 = false ∧
      givingBack.lock.acquire 1 = .waits := by
  intro taking givingBack
  have hfirst : Reachable taking := .single ⟨1, trivial, .take rfl rfl⟩
  have hsecond : Reachable takenByOne := hfirst.tail ⟨1, trivial, .next (by decide)⟩
  have hthird : Reachable givingBack := hsecond.tail ⟨1, trivial, .giveBack (by decide) (by decide)⟩
  exact ⟨⟨hfirst, by decide, by decide, by decide⟩, hthird, by decide, by decide, by decide⟩

end Contention

end Supervisor
