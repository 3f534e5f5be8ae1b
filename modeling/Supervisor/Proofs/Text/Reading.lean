/-
The numbers that texts denote.

What a number looks like is told by its bytes, without regard to how it is read: `Denotes t n` says
that the text `t` is one way to write the number `n`.  Reading goes through a text once and watches
at each digit whether the number still fits a word.

* `IsDigit`, `Spells`, `Denotes` — digits, runs of digits, and texts that denote numbers;
* `digitValue?_eq_some_iff` — which bytes count as digits, and with which value;
* `scanDigits_eq` — the digits in front of a text are read exactly if their number fits a word;
* `denotes_iff` — a text denotes the number of the digits that are found in it;
* `reading_accepts_numbers` — what reading accepts, and what it stores.
-/
import Supervisor.Text.Number
import Mathlib.Data.List.TakeWhile
import Mathlib.Data.Nat.Digits.Lemmas

namespace Supervisor.Number

/-! ### Texts that denote numbers -/

/-- The byte `c` is the digit of value `d`; letters may be of either case. -/
def IsDigit (base : Nat) (c : UInt8) (d : Nat) : Prop :=
  d < base ∧ (("0123456789abcdef" : Text)[d]? = some c ∨ ("0123456789ABCDEF" : Text)[d]? = some c)

instance (base : Nat) (c : UInt8) (d : Nat) : Decidable (IsDigit base c d) :=
  inferInstanceAs (Decidable (_ ∧ _))

/-- Digits, most significant first, are the numeral of a number. -/
def Spells (base : Nat) (digits : Text) (n : Nat) : Prop :=
  digits ≠ [] ∧ ∃ values, List.Forall₂ (IsDigit base) digits values ∧
    n = Nat.ofDigits base values.reverse

/-- A text is one way to write a number: decimal digits, or hexadecimal ones behind `0x` or `0X`,
between blanks. -/
inductive Denotes : Text → Nat → Prop
  | decimal {before digits after n} : Text.Blank before → Spells 10 digits n → Text.Blank after →
    Denotes (before ++ (digits ++ after)) n
  | hex {before x digits after n} : Text.Blank before → x = 120 ∨ x = 88 → Spells 16 digits n →
    Text.Blank after → Denotes (before ++ 48 :: x :: (digits ++ after)) n

/-! ### Digits -/

theorem digitValue?_eq_some_iff {base : Nat} (hbase : base = 10 ∨ base = 16) (c : UInt8) (d : Nat) :
    digitValue? base c = some d ↔ IsDigit base c d := by
  have hall : ∀ c : Fin 256, ∀ d : Fin 16,
      (digitValue? 10 (UInt8.ofFin c) = some d.val ↔ IsDigit 10 (UInt8.ofFin c) d.val) ∧
      (digitValue? 16 (UInt8.ofFin c) = some d.val ↔ IsDigit 16 (UInt8.ofFin c) d.val) := by
    decide +kernel
  have hless : ∀ c : Fin 256,
      (∀ d ∈ digitValue? 10 (UInt8.ofFin c), d < 10) ∧
      (∀ d ∈ digitValue? 16 (UInt8.ofFin c), d < 16) := by
    decide +kernel
  by_cases hd : d < 16
  · obtain ⟨hten, hsixteen⟩ := hall c.toFin ⟨d, hd⟩
    rcases hbase with rfl | rfl
    · exact hten
    · exact hsixteen
  · obtain ⟨hten, hsixteen⟩ := hless c.toFin
    rcases hbase with rfl | rfl
    · exact ⟨fun h => absurd (hten d h) (by omega), fun h => absurd h.1 (by omega)⟩
    · exact ⟨fun h => absurd (hsixteen d h) hd, fun h => absurd h.1 hd⟩

/-- Whether a byte counts as a digit. -/
def counts (base : Nat) (c : UInt8) : Bool := (digitValue? base c).isSome

/-- The digits in front of a text, and what follows them. -/
def front (base : Nat) (t : Text) : Text := t.takeWhile (counts base)

def behind (base : Nat) (t : Text) : Text := t.dropWhile (counts base)

/-- The number that comes of `value` when digits are read onto it. -/
def onto (base value : Nat) (digits : Text) : Nat :=
  digits.foldl (fun n c => n * base + (digitValue? base c).getD 0) value

theorem le_onto {base : Nat} (hbase : 0 < base) (value : Nat) (digits : Text) :
    value ≤ onto base value digits := by
  induction digits generalizing value with
  | nil => exact Nat.le_refl value
  | cons c digits ih =>
    calc value ≤ value * base := Nat.le_mul_of_pos_right value hbase
      _ ≤ value * base + (digitValue? base c).getD 0 := Nat.le_add_right _ _
      _ ≤ onto base value (c :: digits) := ih _

/-- Digits of known values are read as their number. -/
theorem onto_eq {base : Nat} (hbase : base = 10 ∨ base = 16) {digits : Text} {values : List Nat}
    (h : List.Forall₂ (IsDigit base) digits values) (value : Nat) :
    onto base value digits = value * base ^ digits.length + Nat.ofDigits base values.reverse := by
  induction h generalizing value with
  | nil => simp [onto]
  | @cons c d digits values hd hrest ih =>
    have hvalue : digitValue? base c = some d := (digitValue?_eq_some_iff hbase c d).2 hd
    have hstep : onto base value (c :: digits) = onto base (value * base + d) digits := by
      rw [onto, List.foldl_cons, hvalue]
      rfl
    have hlength : values.length = digits.length := hrest.length_eq.symm
    rw [hstep, ih, List.reverse_cons, Nat.ofDigits_append, Nat.ofDigits_singleton,
      List.length_reverse, hlength, List.length_cons]
    ring

/-- What counts as digits are digits. -/
theorem exists_values {base : Nat} (hbase : base = 10 ∨ base = 16) {digits : Text}
    (h : ∀ c ∈ digits, counts base c = true) :
    ∃ values, List.Forall₂ (IsDigit base) digits values := by
  induction digits with
  | nil => exact ⟨[], .nil⟩
  | cons c digits ih =>
    obtain ⟨d, hd⟩ := Option.isSome_iff_exists.1 (h c List.mem_cons_self)
    obtain ⟨values, hvalues⟩ := ih fun c hc => h c (List.mem_cons_of_mem _ hc)
    exact ⟨d :: values, .cons ((digitValue?_eq_some_iff hbase c d).1 hd) hvalues⟩

theorem counts_of_values {base : Nat} (hbase : base = 10 ∨ base = 16) {digits : Text}
    {values : List Nat} (h : List.Forall₂ (IsDigit base) digits values) :
    ∀ c ∈ digits, counts base c = true := by
  induction h with
  | nil => exact fun _ hc => absurd hc List.not_mem_nil
  | @cons c d _ _ hd _ ih =>
    refine List.forall_mem_cons.2 ⟨?_, ih⟩
    rw [counts, (digitValue?_eq_some_iff hbase c d).2 hd]
    rfl

theorem spells_iff {base : Nat} (hbase : base = 10 ∨ base = 16) (digits : Text) (n : Nat) :
    Spells base digits n ↔
      digits ≠ [] ∧ (∀ c ∈ digits, counts base c = true) ∧ n = onto base 0 digits := by
  constructor
  · rintro ⟨hsome, values, hvalues, rfl⟩
    exact ⟨hsome, counts_of_values hbase hvalues,
      by rw [onto_eq hbase hvalues, Nat.zero_mul, Nat.zero_add]⟩
  · rintro ⟨hsome, hcounts, rfl⟩
    obtain ⟨values, hvalues⟩ := exists_values hbase hcounts
    exact ⟨hsome, values, hvalues, by rw [onto_eq hbase hvalues, Nat.zero_mul, Nat.zero_add]⟩

/-! ### Reading digits -/

/-- The test before a digit is added finds exactly the numbers that would pass the largest word. -/
theorem passes_iff {base value d : Nat} (hbase : 0 < base) (hd : d ≤ maxWord64) :
    (maxWord64 - d) / base < value ↔ maxWord64 < value * base + d := by
  rw [Nat.div_lt_iff_lt_mul hbase]
  omega

/-- The digits in front of a text are read exactly if their number fits a word. -/
theorem scanDigits_eq {base : Nat} (hbase : base = 10 ∨ base = 16) {value : Nat}
    (hvalue : value ≤ maxWord64) (count : Nat) (t : Text) :
    scanDigits base value count t =
      if onto base value (front base t) ≤ maxWord64 then
        some ⟨onto base value (front base t), count + (front base t).length, behind base t⟩
      else none := by
  have hpos : 0 < base := by omega
  induction t generalizing value count with
  | nil => exact (if_pos hvalue).symm
  | cons c t ih =>
    rw [scanDigits]
    cases hdigit : digitValue? base c with
    | none =>
      have hcounts : ¬counts base c = true := by rw [counts, hdigit]; exact Bool.false_ne_true
      have hfront : front base (c :: t) = [] := List.takeWhile_cons_of_neg hcounts
      have hbehind : behind base (c :: t) = c :: t := List.dropWhile_cons_of_neg hcounts
      rw [hfront, hbehind]
      exact (if_pos hvalue).symm
    | some d =>
      have hcounts : counts base c = true := by rw [counts, hdigit]; rfl
      have hfront : front base (c :: t) = c :: front base t := List.takeWhile_cons_of_pos hcounts
      have hbehind : behind base (c :: t) = behind base t := List.dropWhile_cons_of_pos hcounts
      have honto : onto base value (c :: front base t) =
          onto base (value * base + d) (front base t) := by
        rw [onto, List.foldl_cons, hdigit]
        rfl
      have hsmall : d ≤ maxWord64 := by
        have hlt := ((digitValue?_eq_some_iff hbase c d).1 hdigit).1
        rw [maxWord64]
        omega
      simp only
      rw [hfront, hbehind, honto]
      by_cases hpasses : maxWord64 < value * base + d
      · have hover : ¬onto base (value * base + d) (front base t) ≤ maxWord64 :=
          Nat.not_le.2 (hpasses.trans_le (le_onto hpos _ _))
        rw [if_pos ((passes_iff hpos hsmall).2 hpasses), if_neg hover]
      · rw [if_neg fun h => hpasses ((passes_iff hpos hsmall).1 h), ih (Nat.not_lt.1 hpasses),
          List.length_cons, Nat.add_right_comm]
        rfl

/-! ### Finding the digits -/

theorem not_counts_of_isSpace {base : Nat} (hbase : base = 10 ∨ base = 16) {c : UInt8}
    (h : Text.isSpace c = true) : ¬counts base c = true := by
  have hall : ∀ c : Fin 256, Text.isSpace (UInt8.ofFin c) = true →
      ¬counts 10 (UInt8.ofFin c) = true ∧ ¬counts 16 (UInt8.ofFin c) = true := by
    decide +kernel
  rcases hbase with rfl | rfl
  · exact (hall c.toFin h).1
  · exact (hall c.toFin h).2

/-- Digits in front of blanks are found. -/
theorem front_append {base : Nat} (hbase : base = 10 ∨ base = 16) {digits after : Text}
    (hdigits : ∀ c ∈ digits, counts base c = true) (hafter : Text.Blank after) :
    front base (digits ++ after) = digits ∧ behind base (digits ++ after) = after := by
  rw [front, behind, List.takeWhile_append_of_pos hdigits, List.dropWhile_append_of_pos hdigits]
  cases after with
  | nil => exact ⟨List.append_nil digits, rfl⟩
  | cons c after =>
    have hc := not_counts_of_isSpace hbase (hafter c List.mem_cons_self)
    rw [List.takeWhile_cons_of_neg hc, List.dropWhile_cons_of_neg hc]
    exact ⟨List.append_nil digits, rfl⟩

/-- Blanks in front of something else are dropped. -/
theorem dropWhile_blank {before : Text} (h : Text.Blank before) {c : UInt8} {t : Text}
    (hc : ¬Text.isSpace c = true) : (before ++ c :: t).dropWhile Text.isSpace = c :: t := by
  rw [List.dropWhile_append_of_pos h, List.dropWhile_cons_of_neg hc]

theorem splitBase_hex {x : UInt8} (hx : x = 120 ∨ x = 88) (t : Text) :
    splitBase (48 :: x :: t) = (16, t) := by
  rcases hx with rfl | rfl <;> rfl

/-- Without `0x` or `0X` in front a number is decimal. -/
theorem splitBase_decimal {t : Text} (h : ∀ x, x = 120 ∨ x = 88 → ∀ u, t ≠ 48 :: x :: u) :
    splitBase t = (10, t) := by
  rw [splitBase.eq_def]
  split
  · rename_i x u
    have hx : ¬(x = 120 || x = 88) = true := fun hx =>
      h x (by simpa using hx) u rfl
    exact if_neg hx
  · rfl

/-- A text denotes the number of the digits that are found in it, if there are some, and behind them
nothing but blanks. -/
theorem denotes_iff (t : Text) (n : Nat) :
    Denotes t n ↔
      let found := splitBase (t.dropWhile Text.isSpace)
      front found.1 found.2 ≠ [] ∧ Text.Blank (behind found.1 found.2) ∧
        n = onto found.1 0 (front found.1 found.2) := by
  constructor
  · intro h
    cases h with
    | @decimal before digits after _ hbefore hspells hafter =>
      obtain ⟨hsome, hcounts, rfl⟩ := (spells_iff (.inl rfl) _ _).1 hspells
      have hdrop : (before ++ (digits ++ after)).dropWhile Text.isSpace = digits ++ after := by
        cases digits with
        | nil => exact absurd rfl hsome
        | cons c digits =>
          exact dropWhile_blank hbefore fun hc =>
            not_counts_of_isSpace (.inl rfl) hc (hcounts c List.mem_cons_self)
      -- the second byte is a digit or a blank, and so no `x`
      have hbase : splitBase (digits ++ after) = (10, digits ++ after) := by
        refine splitBase_decimal fun x hx u hu => ?_
        have hmem : x ∈ digits ++ after := hu ▸ by simp
        rcases List.mem_append.1 hmem with hdigit | hblank
        · have := hcounts x hdigit
          rcases hx with rfl | rfl <;> revert this <;> decide
        · have := hafter x hblank
          rcases hx with rfl | rfl <;> revert this <;> decide
      obtain ⟨hfront, hbehind⟩ := front_append (.inl rfl) hcounts hafter
      simp only [hdrop, hbase, hfront, hbehind]
      exact ⟨hsome, hafter, trivial⟩
    | @hex before x digits after _ hbefore hx hspells hafter =>
      obtain ⟨hsome, hcounts, rfl⟩ := (spells_iff (.inr rfl) _ _).1 hspells
      have hdrop := dropWhile_blank hbefore (c := 48) (t := x :: (digits ++ after)) (by decide)
      obtain ⟨hfront, hbehind⟩ := front_append (.inr rfl) hcounts hafter
      simp only [hdrop, splitBase_hex hx, hfront, hbehind]
      exact ⟨hsome, hafter, trivial⟩
  · rintro ⟨hsome, hafter, rfl⟩
    have hbefore : Text.Blank (t.takeWhile Text.isSpace) := fun c hc => List.mem_takeWhile_imp hc
    have ht : t = t.takeWhile Text.isSpace ++ t.dropWhile Text.isSpace :=
      List.takeWhile_append_dropWhile.symm
    set u := t.dropWhile Text.isSpace with hu
    have hsplit (base : Nat) (w : Text) : front base w ++ behind base w = w :=
      List.takeWhile_append_dropWhile
    have hspells {base : Nat} (hbase : base = 10 ∨ base = 16) {w : Text} (hw : front base w ≠ []) :
        Spells base (front base w) (onto base 0 (front base w)) :=
      (spells_iff hbase _ _).2 ⟨hw, fun c hc => List.mem_takeWhile_imp hc, rfl⟩
    by_cases hhex : ∃ x, (x = 120 ∨ x = 88) ∧ ∃ w, u = 48 :: x :: w
    · obtain ⟨x, hx, w, hw⟩ := hhex
      rw [hw, splitBase_hex hx] at hsome hafter ⊢
      rw [ht, hw, ← hsplit 16 w]
      exact .hex hbefore hx (by simpa only [hsplit] using hspells (.inr rfl) hsome) hafter
    · have hdecimal : splitBase u = (10, u) :=
        splitBase_decimal fun x hx w hw => hhex ⟨x, hx, w, hw⟩
      rw [hdecimal] at hsome hafter ⊢
      rw [ht]
      have := Denotes.decimal hbefore (hspells (.inl rfl) hsome) hafter
      rwa [hsplit] at this

/-- A text denotes one number at most. -/
theorem Denotes.unique {t : Text} {n k : Nat} (hn : Denotes t n) (hk : Denotes t k) : n = k :=
  ((denotes_iff t n).1 hn).2.2.trans ((denotes_iff t k).1 hk).2.2.symm

/-! ### Reading -/

theorem splitBase_fst (t : Text) : (splitBase t).1 = 10 ∨ (splitBase t).1 = 16 := by
  rw [splitBase.eq_def]
  split
  · split
    · exact .inr rfl
    · exact .inl rfl
  · exact .inl rfl

/-- Reading finds exactly the words that a text denotes. -/
theorem word64?_eq_some_iff (t : Text) (v : UInt64) :
    word64? t = some v ↔ Denotes t v.toNat := by
  rw [denotes_iff]
  have hread : word64? t = (do
      let found := splitBase (t.dropWhile Text.isSpace)
      let scan ← scanDigits found.1 0 0 found.2
      guard (scan.digits ≠ 0)
      guard (scan.rest.all Text.isSpace)
      return scan.value.toUInt64) := rfl
  rw [hread]
  set found := splitBase (t.dropWhile Text.isSpace) with hfound
  have hbase : found.1 = 10 ∨ found.1 = 16 := splitBase_fst _
  simp only [scanDigits_eq hbase (Nat.zero_le _), Nat.zero_add]
  set n := onto found.1 0 (front found.1 found.2) with hn
  have hblank : (behind found.1 found.2).all Text.isSpace = true ↔
      Text.Blank (behind found.1 found.2) := List.all_eq_true
  have hword : n ≤ maxWord64 → (n.toUInt64 = v ↔ v.toNat = n) := by
    intro hfits
    have hlt : n < 2 ^ 64 := Nat.lt_of_le_of_lt hfits (by decide)
    rw [← UInt64.toNat_inj, Nat.toUInt64_eq, UInt64.toNat_ofNat_of_lt' hlt]
    exact eq_comm
  by_cases hfits : n ≤ maxWord64
  · rw [if_pos hfits, Option.bind_eq_bind, Option.bind_some]
    by_cases hsome : front found.1 found.2 = []
    · simp [hsome]
    · have hlength : (front found.1 found.2).length ≠ 0 := by rwa [ne_eq, List.length_eq_zero_iff]
      by_cases hafter : Text.Blank (behind found.1 found.2)
      · simp [guard, hsome, hlength, hblank.2 hafter, hafter, hword hfits]
      · simp [guard, hsome, hlength, mt hblank.1 hafter, hafter]
  · have hnot : v.toNat ≠ n := by
      have := v.toNat_lt
      rw [maxWord64] at hfits
      omega
    simp [if_neg hfits, hnot]

theorem word32?_eq_some_iff (t : Text) (v : UInt32) :
    word32? t = some v ↔ Denotes t v.toNat := by
  have hread : word32? t = (word64? t).bind fun w =>
      if w.toNat ≤ maxWord32 then some w.toUInt32 else none := by
    show (word64? t >>= fun w => guard (w.toNat ≤ maxWord32) >>= fun _ => pure w.toUInt32) = _
    rw [Option.bind_eq_bind]
    congr 1
    funext w
    by_cases hw : w.toNat ≤ maxWord32
    · simp [guard, hw]
    · simp [guard, hw]
  rw [hread, Option.bind_eq_some_iff]
  have hv := v.toNat_lt
  constructor
  · rintro ⟨w, hw, hkept⟩
    by_cases hfits : w.toNat ≤ maxWord32
    · rw [if_pos hfits, Option.some_inj] at hkept
      have hsame : v.toNat = w.toNat := by
        rw [← hkept, UInt64.toNat_toUInt32]
        exact Nat.mod_eq_of_lt (Nat.lt_of_le_of_lt hfits (by decide))
      rw [hsame]
      exact (word64?_eq_some_iff t w).1 hw
    · rw [if_neg hfits] at hkept
      cases hkept
  · intro h
    have hwide : v.toUInt64.toNat = v.toNat := UInt32.toNat_toUInt64 v
    refine ⟨v.toUInt64, (word64?_eq_some_iff t _).2 (by rwa [hwide]), ?_⟩
    have hfits : v.toUInt64.toNat ≤ maxWord32 := by
      rw [hwide, maxWord32]
      omega
    rw [if_pos hfits, UInt32.toUInt32_toUInt64]

/-- A word of some size that is found in a text exactly if the text denotes it. -/
theorem storeIn_of_finds {W : Type} {toNat : W → Nat} {bound : Nat} {t : Text} {found : Option W}
    (word : ∀ n < bound, ∃ v, toNat v = n) (fits : ∀ v, toNat v < bound)
    (finds : ∀ v, found = some v ↔ Denotes t (toNat v)) (held : W) :
    ((storeIn held found).1 = true ↔ ∃ n, Denotes t n ∧ n < bound) ∧
      (∀ n, Denotes t n → n < bound → toNat (storeIn held found).2 = n) ∧
      ((storeIn held found).1 = false → (storeIn held found).2 = held) := by
  cases hfound : found with
  | none =>
    have hnone : ∀ n, Denotes t n → ¬n < bound := by
      intro n hn hlt
      obtain ⟨v, rfl⟩ := word n hlt
      rw [(finds v).2 hn] at hfound
      cases hfound
    refine ⟨⟨fun h => ?_, fun ⟨n, hn, hlt⟩ => absurd hlt (hnone n hn)⟩,
      fun n hn hlt => absurd hlt (hnone n hn), fun _ => rfl⟩
    cases h
  | some v =>
    have hv := (finds v).1 hfound
    exact ⟨⟨fun _ => ⟨_, hv, fits v⟩, fun _ => rfl⟩, fun n hn _ => hv.unique hn, fun h => nomatch h⟩

/-- **Reading accepts exactly the numbers that fit.**  A text is accepted if and only if it denotes
a number (blanks, then decimal digits, or hexadecimal ones behind `0x` or `0X`, then blanks) and
the number is below the bound of the word.  Then the variable holds that number, and otherwise what
it held before.  A text denotes one number at most, so there is no choice. -/
theorem reading_accepts_numbers (t : Text) :
    (∀ n k, Denotes t n → Denotes t k → n = k) ∧
    (∀ held : UInt64,
      ((read64 t held).1 = true ↔ ∃ n, Denotes t n ∧ n < 2 ^ 64) ∧
      (∀ n, Denotes t n → n < 2 ^ 64 → (read64 t held).2.toNat = n) ∧
      ((read64 t held).1 = false → (read64 t held).2 = held)) ∧
    (∀ held : UInt32,
      ((read32 t held).1 = true ↔ ∃ n, Denotes t n ∧ n < 2 ^ 32) ∧
      (∀ n, Denotes t n → n < 2 ^ 32 → (read32 t held).2.toNat = n) ∧
      ((read32 t held).1 = false → (read32 t held).2 = held)) := by
  refine ⟨fun n k => Denotes.unique, fun held => ?_, fun held => ?_⟩
  · refine storeIn_of_finds (fun n hn => ⟨n.toUInt64, ?_⟩) UInt64.toNat_lt
      (word64?_eq_some_iff t) held
    exact UInt64.toNat_ofNat_of_lt' hn
  · refine storeIn_of_finds (fun n hn => ⟨n.toUInt32, ?_⟩) UInt32.toNat_lt
      (word32?_eq_some_iff t) held
    exact UInt32.toNat_ofNat_of_lt' hn

/-- The largest word in either base, and the first number that is none. -/
example :
    read64 " 18446744073709551615\n" 7 = (true, 18446744073709551615) ∧
    read64 "0XffffFFFFffffFFFF" 7 = (true, 18446744073709551615) ∧
    read64 "18446744073709551616" 7 = (false, 7) := by
  decide

end Supervisor.Number
