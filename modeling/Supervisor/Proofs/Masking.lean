/-
Sections in which interrupts are disabled.

A section disables interrupts, keeps the answer whether they were enabled, and at its end enables
them again if they were.  Sections may stand inside one another, and single interrupts may be let
through or held back, raised or taken back anywhere in between.

* `Masking.Program`, `Masking.Step` — such programs, and their calls one after the other;
* `bitAt` — the bits of a word, and what becomes of each when a mask is set or cleared;
* `Masking.bitAt_run` — the registers but for the status word, bit by bit;
* `Masking.run_steps` — a program closes all of its sections, and leaves the status word as it was;
* `Masking.disabled_of_open` — inside a section interrupts are disabled;
* `masking_nests` — all of it.

Design notes: what the open sections keep is a stack, and the end of a section takes its top.  Only
the status word depends on how sections nest; what happens to the other registers is proved of
calls in any order.
-/
import Supervisor.Interrupts

namespace Supervisor

/-! ### Bits of a word -/

/-- The bit of a word at a place. -/
def bitAt (v : UInt64) (b : Nat) : Bool := v.toBitVec.getLsbD b

theorem eq_of_bitAt {v w : UInt64} (h : ∀ b < 64, bitAt v b = bitAt w b) : v = w :=
  UInt64.eq_of_toBitVec_eq (BitVec.eq_of_getLsbD_eq h)

theorem bitAt_zero (b : Nat) : bitAt 0 b = false := BitVec.getLsbD_zero

theorem bitAt_and (v w : UInt64) (b : Nat) : bitAt (v &&& w) b = (bitAt v b && bitAt w b) := by
  rw [bitAt, UInt64.toBitVec_and, BitVec.getLsbD_and]
  rfl

/-- To set the bits of a mask. -/
theorem bitAt_or (v w : UInt64) (b : Nat) : bitAt (v ||| w) b = (bitAt v b || bitAt w b) := by
  rw [bitAt, UInt64.toBitVec_or, BitVec.getLsbD_or]
  rfl

/-- To clear the bits of a mask. -/
theorem bitAt_and_not (v w : UInt64) {b : Nat} (hb : b < 64) :
    bitAt (v &&& ~~~w) b = (bitAt v b && !bitAt w b) := by
  have hnot : bitAt (~~~w) b = !bitAt w b := by
    rw [bitAt, UInt64.toBitVec_not, BitVec.getLsbD_not, decide_eq_true hb, Bool.true_and]
    rfl
  rw [bitAt_and, hnot]

/-- The place of an interrupt in the enable and pending registers. -/
def Interrupt.place (i : Interrupt) : Nat := i.code.toNat % 64

/-- A mask has one bit, at the place of its interrupt. -/
theorem Interrupt.bitAt_mask (i : Interrupt) {b : Nat} (hb : b < 64) :
    bitAt i.mask b = decide (i.place = b) := by
  have hshift : (i.code.toUInt64.toBitVec % 64).toNat = i.place := by
    rw [BitVec.toNat_umod]
    exact congrArg (· % 64) (UInt8.toNat_toUInt64 i.code)
  have hone (k : Nat) : (1 : UInt64).toBitVec.getLsbD k = decide (k = 0) := by
    show (1#64).getLsbD k = _
    rw [BitVec.getLsbD_one]
    simp
  rw [bitAt, mask, UInt64.toBitVec_shiftLeft, BitVec.getLsbD_shiftLeft', hshift, hone,
    decide_eq_true hb, Bool.true_and, ← decide_not, ← Bool.decide_and]
  exact decide_eq_decide.2 ⟨fun h => by omega, fun h => by omega⟩

theorem bitAt_sie {b : Nat} (hb : b < 64) : bitAt Status.sie b = decide (1 = b) :=
  Interrupt.bitAt_mask .software hb

/-- One bit of the status word says whether interrupts are enabled. -/
theorem isEnabledIn_eq (status : UInt64) :
    InterruptControl.isEnabledIn status = bitAt status 1 := by
  have hbit {b : Nat} (hb : b < 64) :
      bitAt (status &&& Status.sie) b = (bitAt status b && decide (1 = b)) := by
    rw [bitAt_and, bitAt_sie hb]
  rw [InterruptControl.isEnabledIn]
  cases hstatus : bitAt status 1 with
  | true =>
    rw [bne_iff_ne]
    intro hzero
    have hone := hbit (b := 1) (by decide)
    rw [hzero, bitAt_zero, hstatus] at hone
    cases hone
  | false =>
    have hzero : status &&& Status.sie = 0 := by
      refine eq_of_bitAt fun b hb => ?_
      rw [hbit hb, bitAt_zero]
      by_cases h : 1 = b
      · rw [← h, hstatus, Bool.false_and]
      · rw [decide_eq_false h, Bool.and_false]
    rw [hzero, bne_self_eq_false]

/-! ### Programs -/

/-- A call that concerns single interrupts. -/
inductive LineCall where
  | enable (i : Interrupt)
  | disable (i : Interrupt)
  | raise
  | takeBack
deriving Repr, DecidableEq

namespace LineCall

/-- The registers after the call. -/
def perform (c : InterruptControl) : LineCall → Csrs → Csrs
  | enable i => c.enableLine i
  | disable i => c.disableLine i
  | raise => c.raiseSoftware
  | takeBack => c.clearSoftware

/-- What the call makes of the bit of a register at a place, if anything. -/
def sets (csr : Csr) (b : Nat) : LineCall → Option Bool
  | enable i => if csr = .sie ∧ i.place = b then some true else none
  | disable i => if csr = .sie ∧ i.place = b then some false else none
  | raise => if csr = .sip ∧ Interrupt.software.place = b then some true else none
  | takeBack => if csr = .sip ∧ Interrupt.software.place = b then some false else none

theorem sets_eq_none (x : LineCall) {csr : Csr} (hsie : csr ≠ .sie) (hsip : csr ≠ .sip) (b : Nat) :
    x.sets csr b = none := by
  cases x <;> simp [sets, hsie, hsip]

theorem sets_sip_eq_none (x : LineCall) {b : Nat} (h : b ≠ Interrupt.software.place) :
    x.sets .sip b = none := by
  cases x <;> simp [sets, Ne.symm h]

end LineCall

/-- The registers of a hart and what the open sections keep, the innermost first: whether interrupts
were enabled before. -/
structure Masking where
  registers : Csrs
  kept : List Bool := []
deriving Repr, DecidableEq

namespace Masking

inductive Step where
  /-- A section begins. -/
  | mask
  /-- The innermost section ends. -/
  | unmask
  | call (x : LineCall)
deriving Repr, DecidableEq

/-- What stands after a step.  The end of a section gives back what that section kept. -/
def after (c : InterruptControl) (s : Masking) : Step → Masking
  | .mask => ⟨(c.disable s.registers).2, (c.disable s.registers).1 :: s.kept⟩
  | .unmask =>
    match s.kept with
    | [] => s
    | was :: kept => ⟨c.restore was s.registers, kept⟩
  | .call x => { s with registers := x.perform c s.registers }

/-- What stands after some steps. -/
def run (c : InterruptControl) (s : Masking) (steps : List Step) : Masking :=
  steps.foldl (after c) s

/-- The calls among some steps that concern single interrupts. -/
def calls (steps : List Step) : List LineCall :=
  steps.filterMap fun | .call x => some x | _ => none

/-- Programs of properly nested sections. -/
inductive Program where
  | done
  | call (x : LineCall) (rest : Program)
  | masked (body rest : Program)
deriving Repr, DecidableEq

/-- The calls of a program, one after the other. -/
def Program.steps : Program → List Step
  | done => []
  | call x rest => .call x :: rest.steps
  | masked body rest => .mask :: (body.steps ++ .unmask :: rest.steps)

variable {c : InterruptControl}

/-! ### One step -/

section

variable (attached : c.attached = true)

include attached

theorem after_mask (s : Masking) :
    s.after c .mask = ⟨s.registers.clearBits .sstatus Status.sie,
      bitAt s.registers.sstatus 1 :: s.kept⟩ := by
  rw [← isEnabledIn_eq]
  simp [after, InterruptControl.disable, InterruptControl.guarded, attached]

theorem after_unmask {s : Masking} {was : Bool} {kept : List Bool} (h : s.kept = was :: kept) :
    s.after c .unmask =
      ⟨if was then s.registers.setBits .sstatus Status.sie else s.registers, kept⟩ := by
  simp [after, h, InterruptControl.restore, InterruptControl.enable, InterruptControl.guarded,
    attached]

/-- A call for single interrupts sets or clears one mask in one register. -/
theorem perform_eq (x : LineCall) (r : Csrs) :
    x.perform c r = match x with
      | .enable i => r.setBits .sie i.mask
      | .disable i => r.clearBits .sie i.mask
      | .raise => r.setBits .sip Interrupt.software.mask
      | .takeBack => r.clearBits .sip Interrupt.software.mask := by
  cases x <;> simp [LineCall.perform, InterruptControl.enableLine, InterruptControl.disableLine,
    InterruptControl.raiseSoftware, InterruptControl.clearSoftware, InterruptControl.guarded,
    attached]

/-- The ends of a section touch the status word only. -/
theorem read_mask (s : Masking) {csr : Csr} (h : csr ≠ .sstatus) :
    (s.after c .mask).registers.read csr = s.registers.read csr := by
  rw [after_mask attached]
  exact Csrs.read_write_of_ne h.symm _

theorem read_unmask (s : Masking) {csr : Csr} (h : csr ≠ .sstatus) :
    (s.after c .unmask).registers.read csr = s.registers.read csr := by
  cases hkept : s.kept with
  | nil => rw [after, hkept]
  | cons was kept =>
    rw [after_unmask attached hkept]
    cases was with
    | false => rfl
    | true => exact Csrs.read_write_of_ne h.symm _

/-- Each bit of each register is as the call sets it, or as it was. -/
theorem bitAt_perform (x : LineCall) (r : Csrs) (csr : Csr) {b : Nat} (hb : b < 64) :
    bitAt ((x.perform c r).read csr) b = (x.sets csr b).getD (bitAt (r.read csr) b) := by
  have hset (r : Csrs) (target : Csr) (i : Interrupt) :
      bitAt ((r.setBits target i.mask).read csr) b =
        (if csr = target ∧ i.place = b then some true else none).getD (bitAt (r.read csr) b) := by
    by_cases hcsr : csr = target
    · subst hcsr
      rw [Csrs.setBits, Csrs.read_write_self, bitAt_or, i.bitAt_mask hb]
      by_cases hplace : i.place = b <;> simp [hplace]
    · rw [Csrs.setBits, Csrs.read_write_of_ne (Ne.symm hcsr), if_neg fun h => hcsr h.1]
      rfl
  have hclear (r : Csrs) (target : Csr) (i : Interrupt) :
      bitAt ((r.clearBits target i.mask).read csr) b =
        (if csr = target ∧ i.place = b then some false else none).getD (bitAt (r.read csr) b) := by
    by_cases hcsr : csr = target
    · subst hcsr
      rw [Csrs.clearBits, Csrs.read_write_self, bitAt_and_not _ _ hb, i.bitAt_mask hb]
      by_cases hplace : i.place = b <;> simp [hplace]
    · rw [Csrs.clearBits, Csrs.read_write_of_ne (Ne.symm hcsr), if_neg fun h => hcsr h.1]
      rfl
  rw [perform_eq attached]
  cases x with
  | enable i => exact hset r .sie i
  | disable i => exact hclear r .sie i
  | raise => exact hset r .sip .software
  | takeBack => exact hclear r .sip .software

/-! ### Calls in any order -/

/-- What some calls make of the bit of a register at a place: what the last one that sets it
does. -/
def lastSet (csr : Csr) (b : Nat) (xs : List LineCall) : Option Bool :=
  (xs.filterMap (LineCall.sets csr b)).getLast?

omit attached in
theorem lastSet_eq_none {csr : Csr} {b : Nat} (h : ∀ x : LineCall, x.sets csr b = none)
    (xs : List LineCall) : lastSet csr b xs = none := by
  rw [lastSet, List.filterMap_eq_nil_iff.2 fun x _ => h x]
  rfl

omit attached in
theorem lastSet_cons (csr : Csr) (b : Nat) (x : LineCall) (xs : List LineCall) (was : Bool) :
    (lastSet csr b (x :: xs)).getD was = (lastSet csr b xs).getD ((x.sets csr b).getD was) := by
  rw [lastSet, lastSet]
  cases hx : x.sets csr b with
  | none => rw [List.filterMap_cons_none hx]; rfl
  | some on =>
    rw [List.filterMap_cons_some hx, List.getLast?_cons]
    cases (xs.filterMap (LineCall.sets csr b)).getLast? <;> rfl

/-- Whatever the order of the steps, each bit of a register other than the status word is as the
last call that sets it left it, or as it was. -/
theorem bitAt_run (s : Masking) (steps : List Step) (csr : Csr) (h : csr ≠ .sstatus) {b : Nat}
    (hb : b < 64) :
    bitAt ((s.run c steps).registers.read csr) b =
      (lastSet csr b (calls steps)).getD (bitAt (s.registers.read csr) b) := by
  induction steps generalizing s with
  | nil => rfl
  | cons x steps ih =>
    have hrest := ih (s.after c x)
    cases x with
    | mask =>
      rw [read_mask attached s h] at hrest
      exact hrest
    | unmask =>
      rw [read_unmask attached s h] at hrest
      exact hrest
    | call x =>
      have hcall : bitAt ((s.after c (.call x)).registers.read csr) b =
          (x.sets csr b).getD (bitAt (s.registers.read csr) b) :=
        bitAt_perform attached x s.registers csr hb
      rw [hcall, ← lastSet_cons] at hrest
      exact hrest

theorem read_perform (x : LineCall) (r : Csrs) (csr : Csr) (hsie : csr ≠ .sie) (hsip : csr ≠ .sip) :
    (x.perform c r).read csr = r.read csr := by
  refine eq_of_bitAt fun b hb => ?_
  rw [bitAt_perform attached x r csr hb, x.sets_eq_none hsie hsip]
  rfl

end

/-! ### Sections -/

/-- To clear the bit of the interrupts and to set it again if it was set changes nothing. -/
theorem unmasked_eq (status : UInt64) :
    (if bitAt status 1 then (status &&& ~~~Status.sie) ||| Status.sie
      else status &&& ~~~Status.sie) = status := by
  refine eq_of_bitAt fun b hb => ?_
  have hcleared : bitAt (status &&& ~~~Status.sie) b = (bitAt status b && !decide (1 = b)) := by
    rw [bitAt_and_not _ _ hb, bitAt_sie hb]
  cases hstatus : bitAt status 1 with
  | true =>
    rw [if_pos rfl, bitAt_or, hcleared, bitAt_sie hb]
    by_cases h : 1 = b
    · rw [← h, hstatus]
      rfl
    · simp [h]
  | false =>
    rw [if_neg Bool.false_ne_true, hcleared]
    by_cases h : 1 = b
    · rw [← h, hstatus]
      rfl
    · simp [h]

theorem run_append (s : Masking) (xs ys : List Step) :
    s.run c (xs ++ ys) = (s.run c xs).run c ys := List.foldl_append

/-- A program begins and ends as many sections. -/
theorem Program.count_steps (p : Program) : p.steps.count .unmask = p.steps.count .mask := by
  induction p with
  | done => rfl
  | call x rest ih => simpa [steps] using ih
  | masked body rest ihbody ihrest =>
    simp only [steps, List.count_cons, List.count_append, ihbody, ihrest]
    simp
    omega

section

variable (attached : c.attached = true)

include attached

/-- The end of a section gives back what its begin found. -/
theorem after_unmask_of_kept {s s' : Masking}
    (hkept : s'.kept = bitAt s.registers.sstatus 1 :: s.kept)
    (hstatus : s'.registers.sstatus = s.registers.sstatus &&& ~~~Status.sie) :
    (s'.after c .unmask).kept = s.kept ∧
      (s'.after c .unmask).registers.sstatus = s.registers.sstatus := by
  rw [after_unmask attached hkept]
  refine ⟨rfl, ?_⟩
  have hunmasked := unmasked_eq s.registers.sstatus
  rw [← hstatus] at hunmasked
  cases hwas : bitAt s.registers.sstatus 1 with
  | true => rwa [hwas] at hunmasked
  | false => rwa [hwas] at hunmasked

/-- A program closes the sections that it opens, and leaves the status word as it was. -/
theorem run_steps (p : Program) (s : Masking) :
    (s.run c p.steps).kept = s.kept ∧
      (s.run c p.steps).registers.sstatus = s.registers.sstatus := by
  induction p generalizing s with
  | done => exact ⟨rfl, rfl⟩
  | call x rest ih =>
    obtain ⟨hkept, hstatus⟩ := ih (s.after c (.call x))
    exact ⟨hkept, hstatus.trans (read_perform attached x s.registers .sstatus nofun nofun)⟩
  | masked body rest ihbody ihrest =>
    have hrun : s.run c (Program.masked body rest).steps =
        (((s.after c .mask).run c body.steps).after c .unmask).run c rest.steps :=
      run_append (s.after c .mask) body.steps (.unmask :: rest.steps)
    obtain ⟨hkept, hstatus⟩ := ihbody (s.after c .mask)
    rw [after_mask attached] at hkept hstatus
    obtain ⟨hkept', hstatus'⟩ := after_unmask_of_kept attached hkept hstatus
    rw [← after_mask attached] at hkept' hstatus'
    obtain ⟨hrest, hstatus''⟩ := ihrest (((s.after c .mask).run c body.steps).after c .unmask)
    rw [hrun]
    exact ⟨hrest.trans hkept', hstatus''.trans hstatus'⟩

/-- At every point at which a section is open interrupts are disabled. -/
theorem disabled_of_open (p : Program) {s : Masking} {n : Nat}
    (hs : 0 < n → InterruptControl.isEnabledIn s.registers.sstatus = false)
    {before later : List Step} (h : p.steps = before ++ later)
    (hopen : before.count .unmask < n + before.count .mask) :
    InterruptControl.isEnabledIn (s.run c before).registers.sstatus = false := by
  induction p generalizing s n before later with
  | done =>
    obtain ⟨rfl, -⟩ := List.append_eq_nil_iff.1 h.symm
    exact hs (by simpa using hopen)
  | call x rest ih =>
    obtain ⟨rfl, -⟩ | ⟨before, rfl, hrest⟩ := List.cons_eq_append_iff.1 h
    · exact hs (by simpa using hopen)
    · refine ih (s := s.after c (.call x)) (n := n) (fun hn => ?_) hrest (by simpa using hopen)
      rw [← hs hn]
      exact congrArg _ (read_perform attached x s.registers .sstatus nofun nofun)
  | masked body rest ihbody ihrest =>
    obtain ⟨rfl, -⟩ | ⟨before, rfl, hinner⟩ := List.cons_eq_append_iff.1 h
    · exact hs (by simpa using hopen)
    have hmasked : InterruptControl.isEnabledIn (s.after c .mask).registers.sstatus = false := by
      rw [isEnabledIn_eq, after_mask attached]
      show bitAt (s.registers.sstatus &&& ~~~Status.sie) 1 = false
      rw [bitAt_and_not _ _ (by decide), bitAt_sie (by decide)]
      simp
    -- a point of the body lies one section deeper, and behind the section all is as before it
    have hwithin {before later : List Step} (hbody : body.steps = before ++ later)
        (hopen : before.count .unmask < n + 1 + before.count .mask) :
        InterruptControl.isEnabledIn ((s.after c .mask).run c before).registers.sstatus = false :=
      ihbody (fun _ => hmasked) hbody hopen
    have hcount : body.steps.count .unmask = body.steps.count .mask := body.count_steps
    obtain ⟨behind, rfl, hbehind⟩ | ⟨inside, hbody, -⟩ := List.append_eq_append_iff.1 hinner
    · obtain ⟨rfl, -⟩ | ⟨before, rfl, hrest⟩ := List.cons_eq_append_iff.1 hbehind
      · rw [List.append_nil]
        exact hwithin (List.append_nil _).symm (by omega)
      · obtain ⟨-, hstatus⟩ := run_steps attached (.masked body .done) s
        have hrun : s.run c (.mask :: (body.steps ++ .unmask :: before)) =
            (s.run c (Program.masked body .done).steps).run c before := by
          rw [← run_append]
          simp [Program.steps]
        rw [hrun]
        refine ihrest (n := n) (fun hn => ?_) hrest ?_
        · rw [hstatus]
          exact hs hn
        · simp only [List.count_cons, List.count_append] at hopen
          simp at hopen
          omega
    · refine hwithin hbody ?_
      simp only [List.count_cons] at hopen
      simp at hopen
      omega

end

end Masking

/-! ### A control without a hart -/

/-- A control that is not attached to a hart does nothing, and answers no. -/
theorem InterruptControl.inert {c : InterruptControl} (h : c.attached = false) (r : Csrs) :
    c.enable r = (false, r) ∧ c.disable r = (false, r) ∧ (∀ was, c.restore was r = r) ∧
      c.enabled r = false ∧ (∀ x : LineCall, x.perform c r = r) ∧
      ∀ i, c.lineEnabled i r = false ∧ c.linePending i r = false := by
  have hguarded {α : Type} (otherwise : α) (f : Csrs → α × Csrs) :
      c.guarded otherwise f r = (otherwise, r) := by
    rw [guarded, h]
    rfl
  have henable : c.enable r = (false, r) := hguarded _ _
  refine ⟨henable, hguarded _ _, fun was => ?_, ?_, fun x => ?_, fun i => ⟨?_, ?_⟩⟩
  · rw [restore, henable]
    exact ite_self r
  · rw [enabled, h, Bool.false_and]
  · cases x <;> exact congrArg Prod.snd (hguarded _ _)
  · rw [lineEnabled, h, Bool.false_and]
  · rw [linePending, h, Bool.false_and]

open Masking in
/-- **Sections of disabled interrupts nest, and no bit is lost.**  Let the calls of any properly
nested sections be made on any registers.  At every point at which a section is open interrupts are
disabled, and after the program the status word is as it was before.  Each bit of the enable
register is as the last call for the interrupt at its place left it, or as it was.  Of the pending
register only the software interrupt may have changed, and it is as the last call left it that
raises it or takes it back; no other register has changed.  A control that is not attached to a hart
does nothing, and answers no. -/
theorem masking_nests (c : InterruptControl) (p : Program) (r : Csrs) :
    let now (steps : List Step) : Csrs := (run c ⟨r, []⟩ steps).registers
    let ended := now p.steps
    let last (csr : Csr) (b : Nat) : Option Bool := lastSet csr b (calls p.steps)
    (c.attached = true →
      (∀ before later, p.steps = before ++ later → before.count .unmask < before.count .mask →
        InterruptControl.isEnabledIn (now before).sstatus = false) ∧
      ended.sstatus = r.sstatus ∧
      (∀ b < 64, bitAt ended.sie b = (last .sie b).getD (bitAt r.sie b)) ∧
      (∀ b < 64, bitAt ended.sip b =
        if b = Interrupt.software.place then (last .sip b).getD (bitAt r.sip b)
        else bitAt r.sip b) ∧
      ∀ csr, csr ∉ [.sstatus, .sie, .sip] → ended.read csr = r.read csr) ∧
    (c.attached = false →
      c.enable r = (false, r) ∧ c.disable r = (false, r) ∧ (∀ was, c.restore was r = r) ∧
      c.enabled r = false ∧ (∀ x : LineCall, x.perform c r = r) ∧
      ∀ i, c.lineEnabled i r = false ∧ c.linePending i r = false) := by
  intro now ended last
  refine ⟨fun attached => ⟨?_, ?_, ?_, ?_, ?_⟩, fun h => c.inert h r⟩
  · intro before later h hopen
    exact disabled_of_open attached p (n := 0) (fun hn => absurd hn (Nat.lt_irrefl 0)) h (by omega)
  · exact (run_steps attached p ⟨r, []⟩).2
  · intro b hb
    exact bitAt_run attached ⟨r, []⟩ p.steps .sie nofun hb
  · intro b hb
    have hbit := bitAt_run attached ⟨r, []⟩ p.steps .sip nofun hb
    split
    · exact hbit
    · rename_i hb'
      rw [lastSet_eq_none fun x => x.sets_sip_eq_none hb'] at hbit
      exact hbit
  · intro csr hcsr
    simp only [List.mem_cons, List.not_mem_nil, or_false, not_or] at hcsr
    obtain ⟨hsstatus, hsie, hsip⟩ := hcsr
    refine eq_of_bitAt fun b hb => ?_
    have hbit := bitAt_run attached ⟨r, []⟩ p.steps csr hsstatus hb
    rw [lastSet_eq_none fun x => x.sets_eq_none hsie hsip b] at hbit
    exact hbit

namespace Masking

/-- A section within a section: the timer is let through, the software interrupt is held back and
raised, and the timer is held back again behind the sections. -/
def errand : Program :=
  .masked (.call (.enable .timer) (.masked (.call (.disable .software) .done)
    (.call .raise .done))) (.call (.disable .timer) .done)

/-- A hart that has interrupts enabled, and lets the software interrupt and one other through. -/
def errandRegisters : Csrs := { sstatus := Status.spp ||| Status.sie, sie := 0x202 }

/-- In the midst of the errand interrupts are disabled, and after it they are enabled again; of the
enable register only the bit of the software interrupt has gone, and that one is pending. -/
theorem errand_is_neutral :
    let now (steps : List Step) : Csrs := (run ⟨true, 0⟩ ⟨errandRegisters, []⟩ steps).registers
    let ended := now errand.steps
    InterruptControl.isEnabledIn
      (now [.mask, .call (.enable .timer), .mask, .call (.disable .software), .unmask]).sstatus =
        false ∧
    ended.sstatus = Status.spp ||| Status.sie ∧
    (bitAt ended.sie 1, bitAt ended.sie 5, bitAt ended.sie 9) = (false, false, true) ∧
    bitAt ended.sip 1 = true ∧ ended.read .stvec = 0 := by
  intro now ended
  obtain ⟨hattached, -⟩ := masking_nests ⟨true, 0⟩ errand errandRegisters
  obtain ⟨hdisabled, hstatus, hsie, hsip, hothers⟩ := hattached rfl
  refine ⟨hdisabled _ [.call .raise, .unmask, .call (.disable .timer)] rfl (by decide), hstatus, ?_,
    ?_, hothers .stvec (by decide)⟩
  · rw [hsie 1 (by decide), hsie 5 (by decide), hsie 9 (by decide)]
    decide
  · rw [hsip 1 (by decide)]
    decide

end Masking

end Supervisor
