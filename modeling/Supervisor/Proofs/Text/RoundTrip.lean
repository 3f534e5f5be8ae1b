/-
Numerals, written and read back.

A numeral is put into the first bytes of a block, and there may be other bytes behind them.  It is
stored exactly if it fits with its NUL; otherwise there is a refusal, and a terminated string is
left.  Either way the other bytes stay.  Reading knows nothing of how numerals are made; the two
meet at the digits of a text and their values.

* `canonical_spells` — a numeral is a run of digits that spells its number;
* `word64?_decimal`, `word64?_hex` — reading a numeral gives the number back;
* `writeWithin_cases`, `writeHexWithin_cases` — when a numeral is stored, and what is left of one
  that is not;
* `numerals_round_trip` — both together.
-/
import Supervisor.Proofs.Text.Numerals
import Supervisor.Proofs.Text.Reading

namespace Supervisor.Numeral

/-! ### Reading numerals -/

theorem isDigit_characters {base d : Nat} (hmax : base ≤ 16) (h : d < base) :
    Number.IsDigit base (characters.getD d 0) d := by
  have hall : ∀ d : Fin 16,
      ("0123456789abcdef" : Text)[d.val]? = some (characters.getD d.val 0) := by
    decide +kernel
  exact ⟨h, .inl (hall ⟨d, h.trans_le hmax⟩)⟩

/-- A numeral spells its number. -/
theorem canonical_spells {base : Nat} (hbase : 2 ≤ base) (hmax : base ≤ 16) (v : Nat) :
    Number.Spells base (canonical base v) v := by
  rw [canonical]
  by_cases hv : v = 0
  · subst hv
    have hzero : Number.IsDigit base 48 0 := isDigit_characters hmax (by omega)
    rw [if_pos rfl]
    exact ⟨List.cons_ne_nil _ _, [0], .cons hzero .nil, by simp⟩
  · rw [if_neg hv]
    refine ⟨?_, (Nat.digits base v).reverse, ?_, ?_⟩
    · rw [ne_eq, List.reverse_eq_nil_iff, List.map_eq_nil_iff, Nat.digits_eq_nil_iff_eq_zero]
      exact hv
    · rw [List.forall₂_reverse_iff, List.forall₂_map_left_iff, List.forall₂_same]
      exact fun d hd => isDigit_characters hmax (Nat.digits_lt_base hbase hd)
    · rw [List.reverse_reverse, Nat.ofDigits_digits]

theorem zero_not_mem_canonical {base : Nat} (hbase : base = 10 ∨ base = 16) (v : Nat) :
    (0 : UInt8) ∉ canonical base v := by
  intro hmem
  have hspells : Number.Spells base (canonical base v) v :=
    canonical_spells (by omega) (by omega) v
  obtain ⟨-, values, hvalues, -⟩ := hspells
  have hcounts := Number.counts_of_values hbase hvalues 0 hmem
  rcases hbase with rfl | rfl <;> revert hcounts <;> decide

theorem word64?_decimal (v : UInt64) : Number.word64? (canonical 10 v.toNat) = some v := by
  have hspells : Number.Spells 10 (canonical 10 v.toNat) v.toNat :=
    canonical_spells (by decide) (by decide) v.toNat
  have hblank : Text.Blank [] := List.forall_mem_nil _
  have hdenotes := Number.Denotes.decimal hblank hspells hblank
  rw [List.nil_append, List.append_nil] at hdenotes
  exact (Number.word64?_eq_some_iff _ v).2 hdenotes

theorem word64?_hex (v : UInt64) :
    Number.word64? ("0x" ++ canonical 16 v.toNat) = some v := by
  have hspells : Number.Spells 16 (canonical 16 v.toNat) v.toNat :=
    canonical_spells (by decide) (by decide) v.toNat
  have hblank : Text.Blank [] := List.forall_mem_nil _
  have hdenotes := Number.Denotes.hex hblank (.inl rfl) hspells hblank
  rw [List.nil_append, List.append_nil] at hdenotes
  exact (Number.word64?_eq_some_iff _ v).2 hdenotes

/-! ### Numerals in the first bytes of a block -/

/-- What a block holds after the text `t` was put into its first bytes `b`. -/
theorem stored_append {b : Buffer} {t : Text} (h : t.length + 1 ≤ b.length) (rest : Buffer) :
    stored (b ++ rest) t = (some t.length, t ++ 0 :: b.drop (t.length + 1) ++ rest) := by
  rw [stored, List.drop_append_of_le_length h, List.append_assoc, List.cons_append]

section

variable (b rest : Buffer) (v : Nat)

theorem writeWithin_cases (base : Int) :
    let t := canonical base.toNat v
    let result := writeWithin (b ++ rest) b.length base v
    if 2 ≤ base ∧ base ≤ 36 ∧ t.length + 1 ≤ b.length then
      result = (some t.length, t ++ 0 :: b.drop (t.length + 1) ++ rest)
    else
      ∃ left, result = (none, left ++ rest) ∧ left.length = b.length ∧ (b ≠ [] → 0 ∈ left) := by
  intro t result
  have hblock : b.length ≤ (b ++ rest).length := by simp
  have hrest : (b ++ rest).drop b.length = rest := List.drop_left
  by_cases hempty : b = []
  · subst hempty
    rw [if_neg (by simp)]
    exact ⟨[], rfl, rfl, fun h => absurd rfl h⟩
  have hsize : b.length ≠ 0 := by rwa [ne_eq, List.length_eq_zero_iff]
  by_cases hvalid : 2 ≤ base ∧ base ≤ 36
  · obtain ⟨base, rfl⟩ := Int.eq_ofNat_of_zero_le (a := base) (by omega)
    have hbase : 2 ≤ base := by omega
    have hmax : base ≤ 36 := by omega
    have hnumeral : inBase base v = t := inBase_eq_canonical hbase hmax v
    by_cases hfits : t.length + 1 ≤ b.length
    · rw [if_pos ⟨hvalid.1, hvalid.2, hfits⟩]
      have hwrite := writeWithin_of_fits hbase hmax hblock (hnumeral ▸ hfits)
      rw [hnumeral, stored_append hfits] at hwrite
      exact hwrite
    · rw [if_neg fun h => hfits h.2.2]
      obtain ⟨left, hwrite, hleft⟩ := writeWithin_of_short hbase hmax hsize hblock
        (hnumeral ▸ Nat.not_lt.1 hfits)
      rw [hrest] at hwrite
      exact ⟨left ++ [0], hwrite, by simpa using hleft, fun _ => by simp⟩
  · have hinvalid : validBase base = false := Bool.eq_false_iff.2 (mt (validBase_iff base).1 hvalid)
    rw [if_neg fun h => hvalid ⟨h.1, h.2.1⟩]
    obtain ⟨c, b, rfl⟩ := List.exists_cons_of_ne_nil hempty
    refine ⟨0 :: b, ?_, rfl, fun _ => List.mem_cons_self⟩
    show writeWithin _ _ _ _ = _
    rw [writeWithin, if_neg hsize, hinvalid, if_neg Bool.false_ne_true]
    rfl

theorem writeHexWithin_cases (marked : Bool) :
    let t := (if marked then "0x" else "") ++ canonical 16 v
    let result := writeHexWithin (b ++ rest) b.length v marked
    if t.length + 1 ≤ b.length then
      result = (some t.length, t ++ 0 :: b.drop (t.length + 1) ++ rest)
    else
      ∃ left, result = (none, left ++ rest) ∧ left.length = b.length ∧
        (b ≠ [] → left.head? = some 0) := by
  intro t result
  have hblock : b.length ≤ (b ++ rest).length := by simp
  have hrest : (b ++ rest).drop b.length = rest := List.drop_left
  have hmarking : marking marked v = t := by
    rw [marking, hex, inBase_eq_canonical (by decide) (by decide)]
  by_cases hempty : b = []
  · subst hempty
    rw [if_neg (by simp)]
    exact ⟨[], rfl, rfl, fun h => absurd rfl h⟩
  have hsize : b.length ≠ 0 := by rwa [ne_eq, List.length_eq_zero_iff]
  by_cases hfits : t.length + 1 ≤ b.length
  · rw [if_pos hfits]
    have hwrite := writeHexWithin_of_fits hblock (hmarking ▸ hfits)
    rw [hmarking, stored_append hfits] at hwrite
    exact hwrite
  · rw [if_neg hfits]
    obtain ⟨left, hwrite, hleft⟩ := writeHexWithin_of_short hsize hblock
      (hmarking ▸ Nat.not_lt.1 hfits)
    rw [hrest] at hwrite
    exact ⟨0 :: left, hwrite, hleft, fun _ => rfl⟩

end

/-! ### Round trips -/

/-- **Numerals are stored exactly if they fit, and read back as their number.**  Of a block that
starts with the bytes `b`, only these may be written to.  The numeral of a word in a base from 2 to
36 is stored there with a NUL, and its length told, if they are enough for both; otherwise, and in
any other base, there is a refusal, and unless there are no bytes at all a terminated string is left
in them.  So it is with base sixteen behind an optional `0x`, where a refusal leaves the empty
string.  What stands behind `b` stays in all cases.  The string that is found in the block after
the decimal numeral or the marked hexadecimal one was stored is read as the word again. -/
theorem numerals_round_trip (v : UInt64) (b rest : Buffer) :
    (∀ base : Int,
      let t := canonical base.toNat v.toNat
      let result := writeWithin (b ++ rest) b.length base v.toNat
      if 2 ≤ base ∧ base ≤ 36 ∧ t.length + 1 ≤ b.length then
        result = (some t.length, t ++ 0 :: b.drop (t.length + 1) ++ rest)
      else
        ∃ left, result = (none, left ++ rest) ∧ left.length = b.length ∧ (b ≠ [] → 0 ∈ left)) ∧
    (∀ marked : Bool,
      let t := (if marked then "0x" else "") ++ canonical 16 v.toNat
      let result := writeHexWithin (b ++ rest) b.length v.toNat marked
      if t.length + 1 ≤ b.length then
        result = (some t.length, t ++ 0 :: b.drop (t.length + 1) ++ rest)
      else
        ∃ left, result = (none, left ++ rest) ∧ left.length = b.length ∧
          (b ≠ [] → left.head? = some 0)) ∧
    (∀ held : UInt64,
      ((canonical 10 v.toNat).length + 1 ≤ b.length →
        Number.read64 (Text.upToNul (writeWithin (b ++ rest) b.length 10 v.toNat).2) held =
          (true, v)) ∧
      (("0x" ++ canonical 16 v.toNat).length + 1 ≤ b.length →
        Number.read64 (Text.upToNul (writeHexWithin (b ++ rest) b.length v.toNat true).2) held =
          (true, v))) := by
  refine ⟨writeWithin_cases b rest v.toNat, writeHexWithin_cases b rest v.toNat,
    fun held => ⟨fun hfits => ?_, fun hfits => ?_⟩⟩
  · have hten : Int.toNat 10 = 10 := rfl
    have hwrite := writeWithin_cases b rest v.toNat 10
    simp only [hten] at hwrite
    rw [if_pos ⟨by decide, by decide, hfits⟩] at hwrite
    rw [hwrite, List.append_assoc, List.cons_append,
      Text.upToNul_append_zero (zero_not_mem_canonical (.inl rfl) _), Number.read64,
      word64?_decimal]
    rfl
  · have hwrite := writeHexWithin_cases b rest v.toNat true
    simp only [if_true] at hwrite
    rw [if_pos hfits] at hwrite
    have hzero : (0 : UInt8) ∉ ("0x" : Text) ++ canonical 16 v.toNat := by
      rw [List.mem_append, not_or]
      exact ⟨by decide, zero_not_mem_canonical (.inr rfl) _⟩
    rw [hwrite, List.append_assoc, List.cons_append, Text.upToNul_append_zero hzero,
      Number.read64, word64?_hex]
    rfl

end Supervisor.Numeral
