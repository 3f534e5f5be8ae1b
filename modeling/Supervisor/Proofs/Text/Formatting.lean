/-
Formatted text in a buffer.

What a format stands for is told by its bytes, without regard to any buffer: `Renders f args t`
says that the format `f` with the arguments `args` is the text `t`.  Printing reads the format as a
list of pieces, makes each numeral in a buffer of its own, and puts the bytes one by one as long as
there is room.

* `Converts`, `Renders` — what conversions and formats stand for;
* `taken_write`, `taken_writeSigned`, `taken_writeHex` — the numeral of a word fits into the buffer
  that it is made in;
* `Renders.rendered_eq`, `exists_renders` — reading a format as pieces finds the text that it stands
  for, and with matching arguments there is one;
* `Cursor.Holds` — what has been put so far is the start of the text, and the rest is untouched;
* `writeWithin_of_renders` — printing fills a block with the text;
* `write_stores_what_fits` — what printing leaves in a block.
-/
import Supervisor.Proofs.Text.Filling
import Supervisor.Proofs.Text.Numerals
import Supervisor.Text.Format

namespace Supervisor.Format

/-! ### What formats stand for -/

/-- The number that a word is for a signed conversion, of 64 bits or of 32. -/
def signedPart (wide : Bool) (w : UInt64) : Int :=
  Int.bmod w.toNat (if wide then 2 ^ 64 else 2 ^ 32)

/-- The number that a word is for an unsigned conversion, of 64 bits or of 32. -/
def unsignedPart (wide : Bool) (w : UInt64) : Nat := w.toNat % if wide then 2 ^ 64 else 2 ^ 32

/-- The signed decimal numeral. -/
def signedNumeral (v : Int) : Text :=
  (if v < 0 then "-" else "") ++ Numeral.canonical 10 v.natAbs

/-- The conversion that the byte `c` names turns the front of the arguments into a text and leaves
the others. -/
inductive Converts (wide : Bool) : UInt8 → List Arg → Text → List Arg → Prop
  /-- The conversion `s`. -/
  | string {s args} : Converts wide 115 (.string s :: args) (s.getD "(null)") args
  /-- The conversion `c`. -/
  | char {w args} : Converts wide 99 (.word w :: args) [w.toUInt8] args
  /-- The conversions `d` and `i`. -/
  | signed {c w args} : c = 100 ∨ c = 105 →
    Converts wide c (.word w :: args) (signedNumeral (signedPart wide w)) args
  /-- The conversion `u`. -/
  | unsigned {w args} :
    Converts wide 117 (.word w :: args) (Numeral.canonical 10 (unsignedPart wide w)) args
  /-- The conversions `x` and `X`. -/
  | hex {c w args} : c = 120 ∨ c = 88 →
    Converts wide c (.word w :: args) (Numeral.canonical 16 (unsignedPart wide w)) args
  /-- The conversion `p`. -/
  | pointer {w args} :
    Converts wide 112 (.word w :: args) ("0x" ++ Numeral.canonical 16 w.toNat) args
  /-- The percent sign. -/
  | percent {args} : Converts wide 37 args "%" args
  /-- Any other byte. -/
  | other {c args} : c ∉ [115, 99, 100, 105, 117, 120, 88, 112, 37] →
    Converts wide c args ("%" ++ [c]) args

/-- What a conversion starts with. -/
def start (wide : Bool) : Text := if wide then "%ll" else "%"

/-- A format with its arguments stands for a text.  Two letters `l` behind a percent sign always
belong to it; arguments that are left over do not count. -/
inductive Renders : Text → List Arg → Text → Prop
  | nil {args} : Renders [] args []
  /-- A start at the very end stands for nothing. -/
  | lone {wide args} : Renders (start wide) args []
  | literal {c f args t} : c ≠ 37 → Renders f args t → Renders (c :: f) args (c :: t)
  | conversion {wide c f args args' t u} :
    ¬(wide = false ∧ c = 108 ∧ f.head? = some 108) → Converts wide c args t args' →
    Renders f args' u → Renders (start wide ++ c :: f) args (t ++ u)

/-- Bytes that are no percent sign stand for themselves. -/
theorem Renders.literals {l f t : Text} {args : List Arg} (hl : (37 : UInt8) ∉ l)
    (h : Renders f args t) : Renders (l ++ f) args (l ++ t) := by
  induction l with
  | nil => exact h
  | cons c l ih =>
    rw [List.mem_cons, not_or] at hl
    exact .literal (Ne.symm hl.1) (ih hl.2)

/-- Whether an argument is a string. -/
def Arg.isString : Arg → Bool
  | .word _ => false
  | .string _ => true

/-- Whether the argument that a piece asks for is a string; empty for a piece that asks for none. -/
def Piece.asks : Piece → List Bool
  | .literal _ => []
  | .conversion _ c =>
    if c = 115 then [true] else if c ∈ [99, 100, 105, 117, 120, 88, 112] then [false] else []

/-- The arguments are of the kinds that a format asks for, or there are more of them. -/
def Matches (f : Text) (args : List Arg) : Prop :=
  (parse f).flatMap Piece.asks <+: args.map Arg.isString

/-! ### Numerals of words -/

theorem signedValue_eq (wide : Bool) (w : UInt64) : signedValue wide w = signedPart wide w := by
  cases wide with
  | true => exact BitVec.toInt_eq_toNat_bmod _
  | false =>
    rw [signedValue, if_neg Bool.false_ne_true, signedPart, if_neg Bool.false_ne_true]
    have hnarrow : w.toUInt32.toInt32.toInt = Int.bmod w.toUInt32.toNat (2 ^ 32) :=
      BitVec.toInt_eq_toNat_bmod _
    rw [hnarrow, UInt64.toNat_toUInt32, Int.natCast_emod]
    exact Int.emod_bmod _ _

theorem unsignedValue_eq (wide : Bool) (w : UInt64) :
    unsignedValue wide w = unsignedPart wide w := by
  cases wide with
  | true => exact (Nat.mod_eq_of_lt w.toNat_lt).symm
  | false => exact UInt64.toNat_toUInt32 w

theorem unsignedPart_lt (wide : Bool) (w : UInt64) : unsignedPart wide w < 2 ^ 64 := by
  cases wide with
  | true => exact Nat.mod_lt _ (by decide)
  | false => exact (Nat.mod_lt _ (by decide)).trans (by decide)

theorem natAbs_signedPart_le (wide : Bool) (w : UInt64) : (signedPart wide w).natAbs ≤ 2 ^ 63 := by
  cases wide with
  | true =>
    have hlow := Int.le_bmod (x := w.toNat) (m := 2 ^ 64) (by decide)
    have hhigh := Int.bmod_lt (x := w.toNat) (m := 2 ^ 64) (by decide)
    simp only [signedPart, if_true]
    omega
  | false =>
    have hlow := Int.le_bmod (x := w.toNat) (m := 2 ^ 32) (by decide)
    have hhigh := Int.bmod_lt (x := w.toNat) (m := 2 ^ 32) (by decide)
    simp only [signedPart, Bool.false_eq_true, if_false]
    omega

theorem taken_stored (b : Buffer) (t : Text) : taken (Numeral.stored b t) = t := by
  rw [Numeral.stored, taken, List.take_left']
  rfl

theorem taken_write {v : Nat} (h : v < 2 ^ 64) :
    taken (Numeral.write scratch 10 v) = Numeral.canonical 10 v := by
  have hlength : (Numeral.inBase 10 v).length ≤ 20 :=
    Numeral.length_inBase_le (by decide) (by decide) (h.trans (by decide))
  have hfits : (Numeral.inBase 10 v).length < scratch.length :=
    Nat.lt_of_le_of_lt hlength (by decide)
  have hwrite := Numeral.write_of_fits (by decide) (by decide) hfits
  rw [← Numeral.inBase_eq_canonical (by decide) (by decide)]
  exact (congrArg taken hwrite).trans (taken_stored _ _)

theorem taken_writeSigned {v : Int} (h : v.natAbs ≤ 2 ^ 63) :
    taken (Numeral.writeSigned scratch v) = signedNumeral v := by
  have hsigned : Numeral.signed v = signedNumeral v := by
    rw [signedNumeral, ← Numeral.inBase_eq_canonical (by decide) (by decide), Numeral.signed]
    split <;> rfl
  have hlength : (Numeral.inBase 10 v.natAbs).length ≤ 20 :=
    Numeral.length_inBase_le (by decide) (by decide) (Nat.lt_of_le_of_lt h (by decide))
  -- the sign takes one byte, also before the digits of the least number
  have hfits : (Numeral.signed v).length < scratch.length := by
    have hsize : scratch.length = 24 := rfl
    rw [hsize, Numeral.signed]
    split
    · exact Nat.lt_of_le_of_lt (Nat.add_le_add_right hlength 1) (by decide)
    · exact Nat.lt_of_le_of_lt hlength (by decide)
  rw [Numeral.writeSigned_of_fits hfits, taken_stored, hsigned]

theorem taken_writeHex {v : Nat} (h : v < 2 ^ 64) (marked : Bool) :
    taken (Numeral.writeHex scratch v marked) =
      (if marked then "0x" else "") ++ Numeral.canonical 16 v := by
  have hlength : (Numeral.inBase 16 v).length ≤ 16 :=
    Numeral.length_inBase_le (by decide) (by decide) (h.trans_le (by decide))
  have hfits : (Numeral.marking marked v).length < scratch.length := by
    have hsize : scratch.length = 24 := rfl
    rw [hsize]
    cases marked with
    | true => exact Nat.lt_of_le_of_lt (Nat.add_le_add_right hlength 2) (by decide)
    | false => exact Nat.lt_of_le_of_lt hlength (by decide)
  rw [Numeral.writeHex_of_fits hfits, taken_stored, Numeral.marking, Numeral.hex_eq_canonical]

/-! ### Reading a format as pieces -/

/-- What a conversion stands for is what its piece prints. -/
theorem Converts.render_eq {wide : Bool} {c : UInt8} {args args' : List Arg} {t : Text}
    (h : Converts wide c args t args') : (Piece.conversion wide c).render args = (t, args') := by
  cases h with
  | string => rfl
  | char => rfl
  | @signed _ w _ hc =>
    have hconvert : convert? wide c (.word w) = some (signedNumeral (signedPart wide w)) := by
      rw [← taken_writeSigned (natAbs_signedPart_le wide w), ← signedValue_eq]
      rcases hc with rfl | rfl <;> rfl
    simp only [Piece.render, List.headD_cons, hconvert, List.drop_one, List.tail_cons]
  | @unsigned w =>
    have hconvert : convert? wide 117 (.word w) =
        some (Numeral.canonical 10 (unsignedPart wide w)) := by
      rw [← taken_write (unsignedPart_lt wide w), ← unsignedValue_eq]
      rfl
    simp only [Piece.render, List.headD_cons, hconvert, List.drop_one, List.tail_cons]
  | @hex _ w _ hc =>
    have hconvert : convert? wide c (.word w) =
        some (Numeral.canonical 16 (unsignedPart wide w)) := by
      have htaken : taken (Numeral.writeHex scratch (unsignedPart wide w) false) =
          Numeral.canonical 16 (unsignedPart wide w) :=
        taken_writeHex (unsignedPart_lt wide w) false
      rw [← htaken, ← unsignedValue_eq]
      rcases hc with rfl | rfl <;> rfl
    simp only [Piece.render, List.headD_cons, hconvert, List.drop_one, List.tail_cons]
  | @pointer w =>
    have hconvert : convert? wide 112 (.word w) =
        some ("0x" ++ Numeral.canonical 16 w.toNat) := by
      exact congrArg some (taken_writeHex w.toNat_lt true)
    simp only [Piece.render, List.headD_cons, hconvert, List.drop_one, List.tail_cons]
  | percent => rfl
  | other hc =>
    simp only [List.mem_cons, List.not_mem_nil, or_false, not_or] at hc
    obtain ⟨h1, h2, h3, h4, h5, h6, h7, h8, h9⟩ := hc
    have hconvert : ∀ a, convert? wide c a = none := fun a => by
      simp [convert?, h1, h2, h3, h4, h5, h6, h7, h8]
    simp only [Piece.render, hconvert, if_neg h9]
    rfl

/-- What a list of pieces prints. -/
def rendered : List Piece → List Arg → Text
  | [], _ => []
  | p :: ps, args => (p.render args).1 ++ rendered ps (p.render args).2

theorem parse_literal {c : UInt8} (hc : c ≠ 37) (f : Text) :
    parse (c :: f) = .literal c :: parse f := by
  rw [parse.eq_def]
  cases f with
  | nil => exact if_neg hc
  | cons d f => exact if_pos hc

theorem parse_start (wide : Bool) : parse (start wide) = [] := by
  cases wide <;> rfl

theorem parse_conversion {wide : Bool} {c : UInt8} {f : Text}
    (h : ¬(wide = false ∧ c = 108 ∧ f.head? = some 108)) :
    parse (start wide ++ c :: f) = .conversion wide c :: parse f := by
  cases wide with
  | true => rfl
  | false =>
    show parse (37 :: c :: f) = _
    rw [parse.eq_def]
    simp only
    rw [if_neg (by decide)]
    by_cases hc : c = 108
    · subst hc
      rw [if_neg (by decide)]
      cases f with
      | nil => rfl
      | cons e f => exact if_pos fun he => h ⟨rfl, rfl, congrArg some he⟩
    · exact if_pos hc

/-- Reading a format as pieces finds the text that it stands for. -/
theorem Renders.rendered_eq {f : Text} {args : List Arg} {t : Text} (h : Renders f args t) :
    rendered (parse f) args = t := by
  induction h with
  | nil => rfl
  | lone => rw [parse_start, rendered]
  | literal hc _ ih =>
    rw [parse_literal hc, rendered]
    exact congrArg (_ :: ·) ih
  | conversion hl hconverts _ ih =>
    rw [parse_conversion hl, rendered, hconverts.render_eq, ih]

/-- How a format begins. -/
theorem format_cases (f : Text) :
    f = [] ∨ (∃ wide, f = start wide) ∨ (∃ c g, c ≠ 37 ∧ f = c :: g) ∨
      ∃ wide c g, ¬(wide = false ∧ c = 108 ∧ g.head? = some 108) ∧ f = start wide ++ c :: g := by
  match f with
  | [] => exact .inl rfl
  | c :: g =>
    by_cases hc : c = 37
    · subst hc
      match g with
      | [] => exact .inr (.inl ⟨false, rfl⟩)
      | d :: g =>
        by_cases hll : d = 108 ∧ g.head? = some 108
        · obtain ⟨rfl, hhead⟩ := hll
          obtain ⟨g, rfl⟩ := List.head?_eq_some_iff.1 hhead
          match g with
          | [] => exact .inr (.inl ⟨true, rfl⟩)
          | e :: g => exact .inr (.inr (.inr ⟨true, e, g, by simp, rfl⟩))
        · exact .inr (.inr (.inr ⟨false, d, g, fun h => hll h.2, rfl⟩))
    · exact .inr (.inr (.inl ⟨c, g, hc, rfl⟩))

/-- A conversion finds what it asks for. -/
theorem exists_converts {wide : Bool} {c : UInt8} {args : List Arg} {kinds : List Bool}
    (h : (Piece.conversion wide c).asks ++ kinds <+: args.map Arg.isString) :
    ∃ t args', Converts wide c args t args' ∧ kinds <+: args'.map Arg.isString := by
  by_cases hstring : c = 115
  · subst hstring
    match args with
    | [] => cases List.prefix_nil.1 h
    | .word w :: args => cases (List.cons_prefix_cons.1 h).1
    | .string s :: args => exact ⟨_, args, .string, (List.cons_prefix_cons.1 h).2⟩
  · by_cases hword : c ∈ ([99, 100, 105, 117, 120, 88, 112] : List UInt8)
    · rw [Piece.asks, if_neg hstring, if_pos hword] at h
      match args with
      | [] => cases List.prefix_nil.1 h
      | .string s :: args => cases (List.cons_prefix_cons.1 h).1
      | .word w :: args =>
        have hconverts : ∃ t, Converts wide c (.word w :: args) t args := by
          simp only [List.mem_cons, List.not_mem_nil, or_false] at hword
          rcases hword with rfl | rfl | rfl | rfl | rfl | rfl | rfl
          · exact ⟨_, .char⟩
          · exact ⟨_, .signed (.inl rfl)⟩
          · exact ⟨_, .signed (.inr rfl)⟩
          · exact ⟨_, .unsigned⟩
          · exact ⟨_, .hex (.inl rfl)⟩
          · exact ⟨_, .hex (.inr rfl)⟩
          · exact ⟨_, .pointer⟩
        obtain ⟨t, ht⟩ := hconverts
        exact ⟨t, args, ht, (List.cons_prefix_cons.1 h).2⟩
    · rw [Piece.asks, if_neg hstring, if_neg hword] at h
      by_cases hpercent : c = 37
      · subst hpercent
        exact ⟨_, args, .percent, h⟩
      · refine ⟨_, args, .other ?_, h⟩
        simp only [List.mem_cons, List.not_mem_nil, or_false, not_or] at hword ⊢
        exact ⟨hstring, hword.1, hword.2.1, hword.2.2.1, hword.2.2.2.1, hword.2.2.2.2.1,
          hword.2.2.2.2.2.1, hword.2.2.2.2.2.2, hpercent⟩

/-- A format with arguments that match it stands for a text. -/
theorem exists_renders {f : Text} {args : List Arg} (h : Matches f args) :
    ∃ t, Renders f args t := by
  induction hlength : f.length using Nat.strong_induction_on generalizing f args with
  | _ n ih =>
    obtain rfl | ⟨wide, rfl⟩ | ⟨c, g, hc, rfl⟩ | ⟨wide, c, g, hl, rfl⟩ := format_cases f
    · exact ⟨_, .nil⟩
    · exact ⟨_, .lone⟩
    · rw [Matches, parse_literal hc] at h
      have hless : g.length < n := by simp [← hlength]
      obtain ⟨t, ht⟩ := ih g.length hless h rfl
      exact ⟨_, .literal hc ht⟩
    · rw [Matches, parse_conversion hl, List.flatMap_cons] at h
      obtain ⟨t, args', hconverts, hrest⟩ := exists_converts h
      have hless : g.length < n := by
        rw [← hlength, List.length_append, List.length_cons]
        omega
      obtain ⟨u, hu⟩ := ih g.length hless hrest rfl
      exact ⟨_, .conversion hl hconverts hu⟩

/-! ### Printing into a buffer -/

/-- The cursor has put as much of a text into the first `size` bytes of the block `b` as leaves room
for a NUL, and has touched nothing else. -/
structure Cursor.Holds (k : Cursor) (b : Buffer) (size : Nat) (t : Text) : Prop where
  size_eq : k.size = size
  written_eq : k.written = (t.take (size - 1)).length
  buffer_eq : k.buffer = t.take (size - 1) ++ b.drop (t.take (size - 1)).length

section

variable {k : Cursor} {b : Buffer} {size : Nat} {t : Text} (hsize : 0 < size)
  (hblock : size ≤ b.length)

include hsize hblock

theorem Cursor.Holds.put (h : k.Holds b size t) (c : UInt8) :
    (k.put c).Holds b size (t ++ [c]) := by
  obtain ⟨rfl, hwritten, hbuffer⟩ := h
  rw [Cursor.put]
  by_cases hroom : k.written + 1 < k.size
  · -- so far all of the text went in, and the byte goes behind it
    have hshort : t.length + 1 < k.size := by
      rw [List.length_take] at hwritten
      omega
    have hall : t.take (k.size - 1) = t := List.take_of_length_le (by omega)
    have hlength : (t ++ [c]).length = t.length + 1 := List.length_append
    have hmore : (t ++ [c]).take (k.size - 1) = t ++ [c] := List.take_of_length_le (by omega)
    rw [hall] at hwritten hbuffer
    rw [if_pos hroom]
    constructor
    · rfl
    · show k.written + 1 = ((t ++ [c]).take (k.size - 1)).length
      rw [hmore, hlength, hwritten]
    · show k.buffer.set k.written c =
        (t ++ [c]).take (k.size - 1) ++ b.drop ((t ++ [c]).take (k.size - 1)).length
      rw [hmore, hlength, hbuffer, hwritten, Buffer.set_behind (by omega), List.append_assoc]
      rfl
  · -- the room is used up, and the byte is lost
    have hlong : k.size - 1 ≤ t.length := by
      rw [List.length_take] at hwritten
      omega
    have hfull : (t ++ [c]).take (k.size - 1) = t.take (k.size - 1) :=
      List.take_append_of_le_length hlong
    rw [if_neg hroom]
    constructor
    · rfl
    · rw [hfull, hwritten]
    · rw [hfull, hbuffer]

theorem Cursor.Holds.puts (h : k.Holds b size t) (u : Text) :
    (u.foldl Cursor.put k).Holds b size (t ++ u) := by
  induction u generalizing k t with
  | nil => rwa [List.append_nil]
  | cons c u ih =>
    rw [List.foldl_cons, List.append_cons]
    exact ih (h.put hsize hblock c)

theorem Cursor.Holds.print (h : k.Holds b size t) (ps : List Piece) (args : List Arg) :
    (k.print ps args).Holds b size (t ++ rendered ps args) := by
  induction ps generalizing k t args with
  | nil => rwa [rendered, List.append_nil]
  | cons p ps ih =>
    rw [rendered, ← List.append_assoc]
    exact ih (h.puts hsize hblock _) _

/-- A format fills a block with the text that it stands for, and tells how much of it is there. -/
theorem writeWithin_of_renders {f : Text} {args : List Arg} (h : Renders f args t) :
    writeWithin b size (some f) args = ((t.take (size - 1)).length, b.filled size t) := by
  have hstart : Cursor.Holds ⟨b, size, 0⟩ b size [] := ⟨rfl, by simp, by simp⟩
  have hend := hstart.print hsize hblock (parse f) args
  rw [List.nil_append, h.rendered_eq] at hend
  set k := Cursor.print ⟨b, size, 0⟩ (parse f) args with hk
  have hwritten : k.written = (t.take (size - 1)).length := hend.written_eq
  have hroom : (t.take (size - 1)).length < b.length := by
    rw [List.length_take]
    omega
  have hclosed : k.buffer.set (t.take (size - 1)).length 0 = b.filled size t := by
    rw [hend.buffer_eq, Buffer.set_behind hroom, Buffer.filled]
  rw [writeWithin, if_neg hsize.ne']
  simp only [← hk, hwritten, hclosed]

end

/-- **Printing stores what fits.**  A format with arguments that match it stands for one text.
Printed into the first bytes of a block, with room for at least a NUL, it puts as many bytes of that
text in front as leave that room, and one NUL behind them; the rest of the block is as it was,
within those bytes and behind them, and the answer is the number of bytes before the NUL.  Without
room, or without a block, nothing is written and the answer is zero. -/
theorem write_stores_what_fits {f : Text} {args : List Arg} (matching : Matches f args) :
    ∃ t, (∀ u, Renders f args u ↔ u = t) ∧
      (∀ (b : Buffer) (size : Nat), 0 < size → size ≤ b.length →
        let n := min t.length (size - 1)
        writeTo (some b) size (some f) args = (n, some (t.take n ++ 0 :: b.drop (n + 1)))) ∧
      (∀ b, writeTo (some b) 0 (some f) args = (0, some b)) ∧
      ∀ size, writeTo none size (some f) args = (0, none) := by
  obtain ⟨t, h⟩ := exists_renders matching
  have hunique : ∀ u, Renders f args u ↔ u = t := by
    intro u
    constructor
    · exact fun hu => hu.rendered_eq.symm.trans h.rendered_eq
    · rintro rfl
      exact h
  refine ⟨t, hunique, fun b size hsize hblock => ?_, fun b => rfl, fun size => rfl⟩
  intro n
  have hn : (t.take (size - 1)).length = n := by rw [List.length_take, Nat.min_comm]
  have htake : t.take n = t.take (size - 1) := List.take_eq_take_iff.2 (by omega)
  rw [writeTo, writeWithin_of_renders hsize hblock h, Buffer.filled, hn, htake]

/-- The least 64-bit number, cut in the middle of its digits in the first eight bytes of a longer
block, and the whole of what a block of sixty-four bytes has room for. -/
theorem least_number_is_cut :
    let f : Text := "%s=%lld%q"
    let args : List Arg := [.string (some "min"), .word 0x8000000000000000]
    writeTo (some (Buffer.blank 12)) 8 (some f) args =
      (7, some (("min=-92" : Text) ++ 0 :: Buffer.blank 4)) ∧
    writeTo (some (Buffer.blank 64)) 64 (some f) args =
      (26, some (("min=-9223372036854775808%q" : Text) ++ 0 :: Buffer.blank 37)) ∧
    writeTo (some (Buffer.blank 12)) 0 (some f) args = (0, some (Buffer.blank 12)) := by
  intro f args
  have matching : Matches f args := by
    rw [Matches]
    decide +kernel
  obtain ⟨t, hrenders, hwrite, hnone, -⟩ := write_stores_what_fits matching
  have ht : Renders f args "min=-9223372036854775808%q" := by
    have hnumber : Converts true 100 [.word 0x8000000000000000] "-9223372036854775808" [] := by
      have hnumeral : signedNumeral (signedPart true 0x8000000000000000) =
          "-9223372036854775808" := by
        rw [signedNumeral, ← Numeral.inBase_eq_canonical (by decide) (by decide)]
        decide +kernel
      exact hnumeral ▸ .signed (.inl rfl)
    exact @Renders.conversion false 115 _ _ _ _ _ (by decide) .string <|
      .literal (by decide) <|
      @Renders.conversion true 100 _ _ _ _ _ (by decide) hnumber <|
      @Renders.conversion false 113 _ _ _ _ _ (by decide) (.other (by decide)) .nil
  obtain rfl := (hrenders _).1 ht
  exact ⟨hwrite (Buffer.blank 12) 8 (by decide) (by decide),
    hwrite (Buffer.blank 64) 64 (by decide) (by decide), hnone _⟩

end Supervisor.Format
