/-
The text of an error in a buffer.

The headline of an error is printed by a format into the buffer, the note on its address by another
into a buffer of its own, and the note is appended to what the headline left.  The three routines
count their room in different ways, and agree at every cut: the buffer holds the start of the whole
text.

* `SystemError.wording` — the whole text, told by its parts;
* `renders_headline`, `renders_note` — the two formats stand for its two halves;
* `zero_not_mem_describe` — there is no NUL in it, so nothing of it is lost when it is read as a
  terminated string;
* `writeWithin_eq` — writing an error fills a block with its text;
* `line_eq` — the lines of a listing show what is left of the text in a buffer of 160 bytes;
* `built_texts_are_cut_concatenations` — strings that are copied and appended, and texts of errors.
-/
import Supervisor.Listing
import Supervisor.Proofs.Text.Formatting
import Supervisor.Proofs.Text.RoundTrip

namespace Supervisor

namespace SystemError

/-- The whole text of an error: its level in brackets, its source, its code, where it was raised,
and, if there is one, the address that it is about. -/
def wording (e : SystemError) : Text :=
  List.flatten ["[", e.level.name, "] ", e.source.name, " error ",
    Numeral.canonical 16 e.code.code.toNat, " at 0x", Numeral.canonical 16 e.instruction.toNat,
    match e.address with
    | none => []
    | some a => List.flatten [" (addr: 0x", Numeral.canonical 16 a.toNat, ")"]]

theorem describe_eq (e : SystemError) : e.describe = e.wording := by
  have hat : (" at 0x" : Text) = " at " ++ "0x" := rfl
  have haddr : (" (addr: 0x" : Text) = " (addr: " ++ "0x" := rfl
  rw [describe, wording, headline, Numeral.hex_eq_canonical, Numeral.pointer_eq_canonical, hat]
  cases e.address with
  | none => simp
  | some a => simp [addressNote, Numeral.pointer_eq_canonical, haddr]

/-! ### The two formats -/

section

open Format

theorem renders_headline (e : SystemError) :
    Renders "[%s] %s error %x at %p"
      [.string (some e.level.name), .string (some e.source.name), .word e.code.code.toUInt64,
        .word e.instruction] e.headline := by
  have hformat : ("[%s] %s error %x at %p" : Text) =
      ("[" : Text) ++ (start false ++ 115 :: (("] " : Text) ++ (start false ++ 115 ::
        ((" error " : Text) ++ (start false ++ 120 :: ((" at " : Text) ++
          (start false ++ 112 :: []))))))) := rfl
  have hcode : unsignedPart false e.code.code.toUInt64 = e.code.code.toNat :=
    Nat.mod_eq_of_lt (e.code.code.toNat_lt.trans (by decide))
  have hheadline : e.headline = ("[" : Text) ++ (Text.ofString e.level.name ++ (("] " : Text) ++
      (Text.ofString e.source.name ++ ((" error " : Text) ++
        (Numeral.canonical 16 (unsignedPart false e.code.code.toUInt64) ++ ((" at " : Text) ++
          (("0x" ++ Numeral.canonical 16 e.instruction.toNat : Text) ++ []))))))) := by
    rw [headline, Numeral.hex_eq_canonical, Numeral.pointer_eq_canonical, hcode]
    rfl
  rw [hformat, hheadline]
  refine .literals (by decide) (.conversion (by decide) .string ?_)
  refine .literals (by decide) (.conversion (by decide) .string ?_)
  refine .literals (by decide) (.conversion (by decide) (.hex (.inl rfl)) ?_)
  exact .literals (by decide) (.conversion (by decide) .pointer .nil)

theorem renders_note (a : UInt64) : Renders " (addr: %p)" [.word a] (addressNote a) := by
  have hformat : (" (addr: %p)" : Text) =
      (" (addr: " : Text) ++ (start false ++ 112 :: ((")" : Text) ++ [])) := rfl
  have hnote : addressNote a = (" (addr: " : Text) ++
      (("0x" ++ Numeral.canonical 16 a.toNat : Text) ++ ((")" : Text) ++ [])) := by
    rw [addressNote, Numeral.pointer_eq_canonical]
    rfl
  rw [hformat, hnote]
  refine .literals (by decide) (.conversion (by decide) .pointer ?_)
  exact .literals (by decide) .nil

end

/-! ### No NUL -/

theorem zero_not_mem_name {names : List String} {other : String}
    (h : ∀ s ∈ other :: names, (0 : UInt8) ∉ Text.ofString s) (i : Nat) :
    (0 : UInt8) ∉ Text.ofString ((names[i]?).getD other) := by
  cases hname : names[i]? with
  | none => exact h other List.mem_cons_self
  | some s => exact h s (List.mem_cons_of_mem other (List.mem_of_getElem? hname))

theorem zero_not_mem_pointer (a : UInt64) : (0 : UInt8) ∉ Numeral.pointer a := by
  rw [Numeral.pointer_eq_canonical, List.mem_append, not_or]
  exact ⟨by decide, Numeral.zero_not_mem_canonical (.inr rfl) _⟩

theorem zero_not_mem_headline (e : SystemError) : (0 : UInt8) ∉ e.headline := by
  have hlevel : (0 : UInt8) ∉ Text.ofString e.level.name := zero_not_mem_name (by decide) _
  have hsource : (0 : UInt8) ∉ Text.ofString e.source.name := zero_not_mem_name (by decide) _
  have hcode : (0 : UInt8) ∉ Numeral.hex e.code.code.toNat := by
    rw [Numeral.hex_eq_canonical]
    exact Numeral.zero_not_mem_canonical (.inr rfl) _
  simp only [headline, List.flatten_cons, List.mem_append, not_or]
  exact ⟨by decide, hlevel, by decide, hsource, by decide, hcode, by decide,
    zero_not_mem_pointer e.instruction, by decide⟩

theorem zero_not_mem_note (a : UInt64) : (0 : UInt8) ∉ addressNote a := by
  simp only [addressNote, List.flatten_cons, List.mem_append, not_or]
  exact ⟨by decide, zero_not_mem_pointer a, by decide, by decide⟩

theorem zero_not_mem_describe (e : SystemError) : (0 : UInt8) ∉ e.describe := by
  rw [describe, List.mem_append, not_or]
  refine ⟨e.zero_not_mem_headline, ?_⟩
  cases e.address with
  | none => exact List.not_mem_nil
  | some a => exact zero_not_mem_note a

/-! ### Writing an error -/

/-- The note on any address fits into the buffer that it is made in. -/
theorem length_note_lt (a : UInt64) : (addressNote a).length < noteBuffer.length := by
  have hdigits : (Numeral.hex a.toNat).length ≤ 16 :=
    Numeral.length_inBase_le (by decide) (by decide) (a.toNat_lt.trans_le (by decide))
  have hlength : (addressNote a).length = 11 + (Numeral.hex a.toNat).length := by
    simp only [addressNote, Numeral.pointer, List.flatten_cons, List.length_append,
      List.flatten_nil, List.length_nil]
    have hfront : (" (addr: " : Text).length = 8 := rfl
    have hmark : ("0x" : Text).length = 2 := rfl
    have hback : (")" : Text).length = 1 := rfl
    omega
  have hbuffer : noteBuffer.length = 40 := rfl
  omega

theorem upToNul_note (a : UInt64) :
    Text.upToNul (Format.write noteBuffer (some " (addr: %p)") [.word a]).2 = addressNote a := by
  have hless := length_note_lt a
  rw [Format.write,
    Format.writeWithin_of_renders (Nat.zero_lt_of_lt hless) (Nat.le_refl _) (renders_note a),
    Buffer.upToNul_filled (zero_not_mem_note a), List.take_of_length_le (by omega)]

/-- Writing an error fills a block with its text, and tells how much of it is there. -/
theorem writeWithin_eq (e : SystemError) {b : Buffer} {size : Nat} (hsize : 0 < size)
    (hblock : size ≤ b.length) :
    e.writeWithin b size = ((e.describe.take (size - 1)).length, b.filled size e.describe) := by
  have hzero := e.zero_not_mem_describe
  rw [writeWithin, Format.writeWithin_of_renders hsize hblock e.renders_headline]
  cases haddress : e.address with
  | none =>
    have hdescribe : e.describe = e.headline := by
      rw [describe, haddress]
      exact List.append_nil _
    rw [hdescribe]
  | some a =>
    have hdescribe : e.describe = e.headline ++ addressNote a := by
      rw [describe, haddress]
      rfl
    have happended : (b.filled size e.headline).append (some (addressNote a)) size =
        b.filled size e.describe := by
      rw [Buffer.append_filled hsize hblock e.zero_not_mem_headline, hdescribe]
    simp only [if_neg hsize.ne', upToNul_note, happended, Buffer.upToNul_filled hzero]

/-- The text of an error in the lines of a listing is what is left of it in a buffer of 160
bytes. -/
theorem line_eq (e : SystemError) :
    e.line = Text.upToNul (e.write (Buffer.blank 160)).2 := by
  have hlength : (Buffer.blank 160).length = 160 := List.length_replicate
  rw [write, hlength, e.writeWithin_eq (by decide) hlength.ge,
    Buffer.upToNul_filled e.zero_not_mem_describe, line]

end SystemError

/-- **Texts are built as cut concatenations.**  A string copied into the first `size` bytes of a
block and any number of others appended to it one after the other leave there as much of all of them
behind each other as leaves room for a NUL, with one NUL behind; nothing else of the block is
touched, and the copy tells whether its string went in whole.  In the same way an error leaves as
much of its whole text, the note on its address included, and tells how much that is.  Without room
for a NUL it writes nothing and tells zero. -/
theorem built_texts_are_cut_concatenations :
    (∀ (b : Buffer) (size : Nat) (t : Text) (ts : List Text), 1 ≤ size → size ≤ b.length →
      (∀ u ∈ t :: ts, (0 : UInt8) ∉ u) →
      let copied := b.copyWithin size (some t)
      let built := ts.foldl (fun b u => b.append (some u) size) copied.2
      let left := (t ++ ts.flatten).take (size - 1)
      built = left ++ 0 :: b.drop (left.length + 1) ∧ built.drop size = b.drop size ∧
        (copied.1 = true ↔ t.length < size)) ∧
    ∀ (e : SystemError) (b : Buffer) (size : Nat),
      (1 ≤ size → size ≤ b.length →
        let result := e.writeWithin b size
        let left := e.wording.take (size - 1)
        result = (left.length, left ++ 0 :: b.drop (left.length + 1)) ∧
          result.2.drop size = b.drop size) ∧
      e.writeWithin b 0 = (0, b) := by
  refine ⟨fun b size t ts hsize hblock hstrings => ?_, fun e b size => ⟨fun hsize hblock => ?_, ?_⟩⟩
  · have hbuilt := Buffer.foldl_append_filled hsize hblock hstrings
    rw [Buffer.copyWithin_eq hsize hblock]
    simp only [hbuilt]
    exact ⟨rfl, Buffer.drop_filled hsize, decide_eq_true_iff⟩
  · rw [e.writeWithin_eq hsize hblock, e.describe_eq]
    exact ⟨rfl, Buffer.drop_filled hsize⟩
  · rw [SystemError.writeWithin]
    cases e.address <;> rfl

/-- Of three strings the second is cut and the third is lost; the text of an error is cut in the
numeral of the address that it is about. -/
theorem second_string_is_cut :
    let b : Buffer := Buffer.blank 10
    let copied := b.copyWithin 8 (some "trap")
    let ts : List Text := ["core", "!"]
    let block : Buffer := Buffer.blank 52
    let e : SystemError :=
      { code := .make .memory .fatal 0x12, address := some 0xdead, instruction := 0x80200000 }
    (1 ≤ 8 ∧ 8 ≤ b.length ∧ (∀ u ∈ ("trap" : Text) :: ts, (0 : UInt8) ∉ u) ∧ copied.1 = true ∧
      ts.foldl (fun b u => b.append (some u) 8) copied.2 = ("trapcor" : Text) ++ [0, 126, 126]) ∧
    1 ≤ 50 ∧ 50 ≤ block.length ∧
      e.writeWithin block 50 =
        (49, ("[FATAL] Memory error 12 at 0x80200000 (addr: 0xde" : Text) ++ [0, 126, 126]) ∧
      e.writeWithin block 0 = (0, block) := by
  intro b copied ts block e
  have hstrings := built_texts_are_cut_concatenations.1 b 8 "trap" ts (by decide) (by decide)
    (by decide)
  have herrors := built_texts_are_cut_concatenations.2 e block 50
  have hcut := herrors.1 (by decide) (by decide)
  have hwording : e.wording = ("[FATAL] Memory error 12 at 0x80200000 (addr: 0xdead)" : Text) := by
    rw [← e.describe_eq]
    decide +kernel
  rw [hwording] at hcut
  exact ⟨⟨by decide, by decide, by decide, hstrings.2.2.2 (by decide), hstrings.1⟩,
    by decide, by decide, hcut.1, herrors.2⟩

end Supervisor
