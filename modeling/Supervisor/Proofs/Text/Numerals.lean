/-
Numerals and the buffers they are put into.

The numeral of a number is told by its list of digits in the base, `Nat.digits`.  The digits are
made one by one, least significant first, and turned round in place; here the two are compared.

* `Numeral.canonical` — the numeral of a number in a base;
* `Numeral.inBase_eq_canonical` — it is what the digits come out as;
* `Numeral.length_inBase_le` — how long it may be;
* `Numeral.turnRound_eq`, `putDigits_of_fits`, `putDigits_of_short` — what the two loops leave in a
  block;
* `Numeral.write_of_fits`, `writeSigned_of_fits`, `writeHex_of_fits` — a numeral that fits into a
  buffer, with a NUL behind it, stands at its front, and the rest of the buffer is as it was;
* `Numeral.writeWithin_of_short`, `writeHexWithin_of_short` — what is left of one that does not fit.
-/
import Supervisor.Text.Numeral
import Mathlib.Data.List.Induction
import Mathlib.Data.Nat.Digits.Lemmas

namespace Supervisor.Numeral

/-- The characters that numerals are made of. -/
def characters : Text := "0123456789abcdefghijklmnopqrstuvwxyz"

/-- The numeral of a number in a base: its digits, most significant first, and one zero for
zero. -/
def canonical (base v : Nat) : Text :=
  if v = 0 then "0" else ((Nat.digits base v).map fun d => characters.getD d 0).reverse

theorem digit_eq {d : Nat} (h : d < 36) : digit d = characters.getD d 0 := by
  have hall : ∀ d : Fin 36, digit d = characters.getD d 0 := by decide +kernel
  exact hall ⟨d, h⟩

/-- Dividing step by step gives the digits, as long as there are steps for all of them. -/
theorem digitsBelow_eq {base : Nat} (hbase : 2 ≤ base) {fuel v : Nat} (h : v ≤ fuel) :
    digitsBelow base fuel v = (Nat.digits base v).map digit := by
  induction fuel generalizing v with
  | zero =>
    obtain rfl : v = 0 := by omega
    simp [digitsBelow]
  | succ fuel ih =>
    rw [digitsBelow]
    by_cases hv : v = 0
    · simp [hv]
    · have hpos : 0 < v := Nat.pos_of_ne_zero hv
      have hless : v / base < v := Nat.div_lt_self hpos hbase
      have hfuel : v / base ≤ fuel := by
        generalize v / base = q at hless
        omega
      rw [if_neg hv, ih hfuel, Nat.digits_def' hbase hpos, List.map_cons]

theorem inBase_of_pos {base v : Nat} (hbase : 2 ≤ base) (hv : v ≠ 0) :
    inBase base v = ((Nat.digits base v).map digit).reverse := by
  rw [inBase, lowDigits, if_neg hv, digitsBelow_eq hbase (Nat.le_refl v)]

theorem inBase_eq_canonical {base : Nat} (hbase : 2 ≤ base) (hmax : base ≤ 36) (v : Nat) :
    inBase base v = canonical base v := by
  rw [canonical]
  by_cases hv : v = 0
  · rw [if_pos hv, hv]
    rfl
  · rw [if_neg hv, inBase_of_pos hbase hv]
    congr 1
    refine List.map_congr_left fun d hd => digit_eq ?_
    exact (Nat.digits_lt_base hbase hd).trans_le hmax

theorem hex_eq_canonical (v : Nat) : hex v = canonical 16 v :=
  inBase_eq_canonical (by decide) (by decide) v

theorem pointer_eq_canonical (a : UInt64) : pointer a = "0x" ++ canonical 16 a.toNat := by
  rw [pointer, hex_eq_canonical]

/-- A number below a power of the base has no more digits than the power says. -/
theorem length_inBase_le {base v k : Nat} (hbase : 2 ≤ base) (hk : 0 < k) (h : v < base ^ k) :
    (inBase base v).length ≤ k := by
  by_cases hv : v = 0
  · subst hv
    exact hk
  · rw [inBase_of_pos hbase hv, List.length_reverse, List.length_map]
    exact (Nat.digits_length_le_iff hbase v).2 h

/-! ### Digits in blocks -/

/-- Bytes that are turned round in place stand there in the opposite order. -/
theorem turnRound_eq (front mid back : Text) :
    turnRound mid.length (front ++ (mid ++ back)) front.length =
      front ++ (mid.reverse ++ back) := by
  induction mid using List.bidirectionalRec generalizing front back with
  | nil => rfl
  | singleton a => rfl
  | cons_append a mid z ih =>
    have hlength : (a :: (mid ++ [z])).length = mid.length + 2 := by simp
    have hblock : front ++ (a :: (mid ++ [z]) ++ back) = front ++ a :: (mid ++ z :: back) := by simp
    have hindex : front.length + mid.length + 1 - front.length = mid.length + 1 := by omega
    have hfirst : (front ++ a :: (mid ++ z :: back)).getD front.length 0 = a := by simp
    have hlast : (front ++ a :: (mid ++ z :: back)).getD (front.length + mid.length + 1) 0 = z := by
      rw [List.getD_eq_getElem?_getD, List.getElem?_append_right (by omega), hindex,
        List.getElem?_cons_succ, List.getElem?_append_right (Nat.le_refl _), Nat.sub_self]
      rfl
    have hexchanged : ((front ++ a :: (mid ++ z :: back)).set front.length z).set
        (front.length + mid.length + 1) a = front ++ [z] ++ (mid ++ ([a] ++ back)) := by
      rw [List.set_append_right _ _ (Nat.le_refl _), Nat.sub_self, List.set_cons_zero,
        List.set_append_right _ _ (by omega), hindex, List.set_cons_succ,
        List.set_append_right _ _ (Nat.le_refl _), Nat.sub_self, List.set_cons_zero]
      simp
    rw [hlength, hblock, turnRound]
    simp only [hfirst, hlast, hexchanged]
    have hinner := ih (front ++ [z]) ([a] ++ back)
    rw [List.length_append, List.length_singleton] at hinner
    rw [hinner]
    simp

section

variable {base size fuel v : Nat} {written rest : Text}

/-- Digits for which there is room come to stand behind those that were put before. -/
theorem putDigits_of_fits
    (h : written.length + (digitsBelow base fuel v).length < size)
    (hblock : size ≤ written.length + rest.length) :
    putDigits base size fuel (written ++ rest) written.length v =
      (some (written.length + (digitsBelow base fuel v).length),
        written ++ (digitsBelow base fuel v ++
          0 :: rest.drop ((digitsBelow base fuel v).length + 1))) := by
  induction fuel generalizing v written rest with
  | zero =>
    obtain ⟨c, rest, rfl⟩ := List.exists_cons_of_length_pos (l := rest) (by omega)
    rw [putDigits, List.set_append_right _ _ (Nat.le_refl _), Nat.sub_self]
    rfl
  | succ fuel ih =>
    obtain ⟨c, rest, rfl⟩ := List.exists_cons_of_length_pos (l := rest) (by omega)
    rw [putDigits, digitsBelow]
    rw [digitsBelow] at h
    by_cases hv : v = 0
    · rw [if_pos hv, if_pos hv, List.set_append_right _ _ (Nat.le_refl _), Nat.sub_self]
      rfl
    · rw [if_neg hv, List.length_cons] at h
      rw [if_neg hv, if_neg hv, if_neg (by omega),
        List.set_append_right _ _ (Nat.le_refl _), Nat.sub_self, List.set_cons_zero]
      have hblock' : size ≤ (written ++ [digit (v % base)]).length + rest.length := by
        simp at hblock ⊢
        omega
      have hnext := @ih (v / base) (written ++ [digit (v % base)]) rest
        (by rw [List.length_append, List.length_singleton]; omega) hblock'
      rw [List.length_append, List.length_singleton, List.append_assoc, List.singleton_append]
        at hnext
      rw [hnext, List.length_cons, List.append_assoc, Nat.add_assoc, Nat.add_comm 1]
      rfl

/-- Of digits for which there is no room come those that leave a place for the NUL. -/
theorem putDigits_of_short
    (h : size ≤ written.length + (digitsBelow base fuel v).length) (hroom : written.length < size)
    (hblock : size ≤ written.length + rest.length) :
    putDigits base size fuel (written ++ rest) written.length v =
      (none, written ++ ((digitsBelow base fuel v).take (size - 1 - written.length) ++
        0 :: rest.drop (size - written.length))) := by
  induction fuel generalizing v written rest with
  | zero =>
    rw [digitsBelow, List.length_nil] at h
    omega
  | succ fuel ih =>
    obtain ⟨c, rest, rfl⟩ := List.exists_cons_of_length_pos (l := rest) (by omega)
    rw [putDigits, digitsBelow]
    rw [digitsBelow] at h
    by_cases hv : v = 0
    · rw [if_pos hv, List.length_nil] at h
      omega
    · rw [if_neg hv, List.length_cons] at h
      rw [if_neg hv, if_neg hv]
      by_cases hlast : size ≤ written.length + 1
      · have hsize : size = written.length + 1 := by omega
        subst hsize
        rw [if_pos (Nat.le_refl _), Nat.add_sub_cancel, Nat.min_self, Nat.sub_self,
          Nat.add_sub_cancel_left, List.set_append_right _ _ (Nat.le_refl _), Nat.sub_self]
        rfl
      · rw [if_neg hlast, List.set_append_right _ _ (Nat.le_refl _), Nat.sub_self,
          List.set_cons_zero]
        have hblock' : size ≤ (written ++ [digit (v % base)]).length + rest.length := by
          simp at hblock ⊢
          omega
        have hnext := @ih (v / base) (written ++ [digit (v % base)]) rest
          (by rw [List.length_append, List.length_singleton]; omega)
          (by rw [List.length_append, List.length_singleton]; omega) hblock'
        have htaken : size - 1 - written.length = (size - 1 - (written.length + 1)) + 1 := by omega
        have hdropped : size - written.length = (size - (written.length + 1)) + 1 := by omega
        rw [List.length_append, List.length_singleton, List.append_assoc, List.singleton_append]
          at hnext
        rw [hnext, htaken, hdropped, List.take_succ_cons, List.drop_succ_cons, List.append_assoc]
        rfl

end

/-! ### Numerals in buffers -/

/-- What a block holds after a text and its closing NUL were put at its front. -/
def stored (b : Buffer) (t : Text) : Option Nat × Buffer :=
  (some t.length, t ++ 0 :: b.drop (t.length + 1))

theorem validBase_iff (base : Int) : validBase base = true ↔ 2 ≤ base ∧ base ≤ 36 := by
  rw [validBase, Bool.and_eq_true, decide_eq_true_iff, decide_eq_true_iff]

section

variable {b : Buffer} {size : Nat}

section

variable {base v : Nat} (hbase : 2 ≤ base) (hmax : base ≤ 36)

include hbase hmax

theorem writeWithin_of_validBase (hsize : size ≠ 0) :
    writeWithin b size base v =
      if v = 0 then
        if size ≤ 1 then (none, b.set 0 0) else (some 1, (b.set 0 48).set 1 0)
      else
        match putDigits base size v b 0 v with
        | (some n, b) => (some n, turnRound n b 0)
        | (none, b) => (none, b) := by
  have hvalid : validBase base = true := (validBase_iff base).2 (by omega)
  exact (if_neg hsize).trans (if_pos hvalid)

/-- A numeral that fits with its NUL is stored at the front, and what lies behind stays. -/
theorem writeWithin_of_fits (hblock : size ≤ b.length) (h : (inBase base v).length < size) :
    writeWithin b size base v = stored b (inBase base v) := by
  rw [writeWithin_of_validBase hbase hmax (Nat.ne_zero_of_lt h)]
  by_cases hv : v = 0
  · subst hv
    have hlong : 1 < size := h
    obtain ⟨c, t, rfl⟩ := List.exists_cons_of_length_pos (l := b) (by omega)
    obtain ⟨d, t, rfl⟩ := List.exists_cons_of_length_pos (l := t) (by
      rw [List.length_cons] at hblock
      omega)
    rw [if_pos rfl, if_neg (by omega)]
    rfl
  · have hdigits : inBase base v = (digitsBelow base v v).reverse := by
      rw [inBase, lowDigits, if_neg hv]
    rw [hdigits, List.length_reverse] at h
    have hput := @putDigits_of_fits base size v v [] b (by simpa using h) (by simpa using hblock)
    have hturned := turnRound_eq [] (digitsBelow base v v)
      (0 :: b.drop ((digitsBelow base v v).length + 1))
    simp only [List.nil_append, List.length_nil, Nat.zero_add] at hput hturned
    rw [if_neg hv, hput]
    simp only [hturned, hdigits, stored, List.length_reverse]

/-- A numeral that does not fit leaves low digits with a NUL, and what lies behind stays. -/
theorem writeWithin_of_short (hsize : size ≠ 0) (hblock : size ≤ b.length)
    (h : size ≤ (inBase base v).length) :
    ∃ left, writeWithin b size base v = (none, left ++ [0] ++ b.drop size) ∧
      left.length + 1 = size := by
  rw [inBase, List.length_reverse] at h
  refine ⟨(lowDigits base v).take (size - 1), ?_, by rw [List.length_take]; omega⟩
  rw [writeWithin_of_validBase hbase hmax hsize]
  by_cases hv : v = 0
  · subst hv
    obtain rfl : size = 1 := by
      have hone : size ≤ 1 := h
      omega
    obtain ⟨c, t, rfl⟩ := List.exists_cons_of_length_pos (l := b) (by omega)
    rfl
  · have hdigits : lowDigits base v = digitsBelow base v v := if_neg hv
    rw [hdigits] at h
    have hput := @putDigits_of_short base size v v [] b (by simpa using h)
      (Nat.pos_of_ne_zero hsize) (by simpa using hblock)
    simp only [List.nil_append, List.length_nil, Nat.sub_zero] at hput
    rw [if_neg hv, hput, hdigits, List.append_assoc]
    rfl

end

/-- A hexadecimal numeral, after `0x` if it is marked. -/
def marking (marked : Bool) (v : Nat) : Text := (if marked then "0x" else "") ++ hex v

variable {v : Nat} {marked : Bool}

theorem writeHexWithin_of_fits (hblock : size ≤ b.length) (h : (marking marked v).length < size) :
    writeHexWithin b size v marked = stored b (marking marked v) := by
  rw [writeHexWithin, if_neg (Nat.ne_zero_of_lt h)]
  cases marked with
  | true =>
    have hmarking : marking true v = 48 :: 120 :: hex v := rfl
    rw [hmarking, List.length_cons, List.length_cons] at h
    have hwrite : writeWithin (b.drop 2) (size - 2) 16 v = stored (b.drop 2) (hex v) := by
      refine @writeWithin_of_fits _ _ 16 _ (by decide) (by decide) ?_ (Nat.lt_sub_of_add_lt h)
      rw [List.length_drop]
      omega
    rw [if_pos rfl, if_neg (by omega), hmarking, hwrite, stored, List.drop_drop, Nat.add_comm 2]
    rfl
  | false =>
    have hwrite : writeWithin b size 16 v = stored b (hex v) :=
      @writeWithin_of_fits _ _ 16 _ (by decide) (by decide) hblock h
    rw [if_neg Bool.false_ne_true, hwrite]
    rfl

/-- A numeral that does not fit leaves the empty string, and what lies behind stays. -/
theorem writeHexWithin_of_short (hsize : size ≠ 0) (hblock : size ≤ b.length)
    (h : size ≤ (marking marked v).length) :
    ∃ left, writeHexWithin b size v marked = (none, 0 :: (left ++ b.drop size)) ∧
      left.length + 1 = size := by
  rw [writeHexWithin, if_neg hsize]
  cases marked with
  | true =>
    have hmarking : marking true v = 48 :: 120 :: inBase 16 v := rfl
    rw [hmarking, List.length_cons, List.length_cons] at h
    rw [if_pos rfl]
    by_cases hthree : size < 3
    · obtain ⟨c, t, rfl⟩ := List.exists_cons_of_length_pos (l := b) (by omega)
      obtain ⟨k, rfl⟩ := Nat.exists_eq_succ_of_ne_zero hsize
      rw [List.length_cons] at hblock
      refine ⟨t.take k, ?_, by rw [List.length_take]; omega⟩
      rw [if_pos hthree, List.drop_succ_cons, List.take_append_drop]
      rfl
    · obtain ⟨left, hwrite, hleft⟩ := @writeWithin_of_short (b.drop 2) (size - 2) 16 v (by decide)
        (by decide) (by omega) (by rw [List.length_drop]; omega) (by omega)
      have hrest : (b.drop 2).drop (size - 2) = b.drop size := by
        rw [List.drop_drop]
        congr 1
        omega
      have hwrite' : writeWithin (b.drop 2) (size - 2) 16 v = (none, left ++ [0] ++ b.drop size) :=
        hrest ▸ hwrite
      refine ⟨120 :: (left ++ [0]), ?_, by simp; omega⟩
      rw [if_neg hthree, hwrite']
      rfl
  | false =>
    obtain ⟨left, hwrite, hleft⟩ := @writeWithin_of_short b size 16 v (by decide) (by decide) hsize
      hblock h
    have hwrite' : writeWithin b size 16 v = (none, left ++ [0] ++ b.drop size) := hwrite
    obtain ⟨c, t, ht⟩ := List.exists_cons_of_length_pos (l := left ++ [0]) (by simp)
    refine ⟨t, ?_, ?_⟩
    · rw [if_neg Bool.false_ne_true, hwrite', ht]
      rfl
    · have hlength := congrArg List.length ht
      simp only [List.length_append, List.length_cons, List.length_nil] at hlength
      omega

end

theorem write_of_fits {b : Buffer} {base v : Nat} (hbase : 2 ≤ base) (hmax : base ≤ 36)
    (h : (inBase base v).length < b.length) : write b base v = stored b (inBase base v) :=
  writeWithin_of_fits hbase hmax (Nat.le_refl _) h

theorem writeSigned_of_fits {b : Buffer} {v : Int} (h : (signed v).length < b.length) :
    writeSigned b v = stored b (signed v) := by
  rw [writeSigned]
  by_cases hv : v < 0
  · have hsigned : signed v = 45 :: decimal v.natAbs := by
      rw [signed, if_pos hv]
      rfl
    rw [hsigned, List.length_cons] at h
    have hroom : (inBase 10 v.natAbs).length < (b.drop 1).length := by
      rw [List.length_drop]
      exact Nat.lt_sub_of_add_lt h
    have hwrite : write (b.drop 1) 10 v.natAbs = stored (b.drop 1) (decimal v.natAbs) :=
      @write_of_fits _ 10 _ (by decide) (by decide) hroom
    rw [if_pos hv, if_neg (by omega), hsigned, hwrite, stored, List.drop_drop, Nat.add_comm 1]
    rfl
  · have hsigned : signed v = decimal v.natAbs := by rw [signed, if_neg hv]
    rw [if_neg hv, hsigned]
    rw [hsigned] at h
    exact write_of_fits (by decide) (by decide) h

theorem writeHex_of_fits {b : Buffer} {v : Nat} {marked : Bool}
    (h : (marking marked v).length < b.length) :
    writeHex b v marked = stored b (marking marked v) :=
  writeHexWithin_of_fits (Nat.le_refl _) h

end Supervisor.Numeral
