/-
Byte texts.

Everything the machine reads or writes as text is a list of bytes.  No encoding is assumed:
any byte may occur, NUL included.  The helpers here are the few readings of a text that the
rest of the library shares:

* `Text.upToNul` — the part that a reader of a terminated string sees;
* `Text.isSpace`, `Text.isDigit` — the two character classes, ASCII only, and `Text.Blank`;
* `Text.difference` — the order of two terminated strings, as the difference of the first
  bytes in which they differ;
* `Text.occursIn` — whether one text stands somewhere inside another.

Design notes: a `String` literal stands for its bytes wherever a `Text` is expected, so the
messages of the machine can be written as literals between their variable parts.
-/

namespace Supervisor

abbrev Text := List UInt8

namespace Text

/-- The bytes of a literal. -/
def ofString (s : String) : Text := s.toByteArray.data.toList

instance : Coe String Text := ⟨ofString⟩

/-- The part of a text before its first NUL. -/
def upToNul (t : Text) : Text := t.takeWhile (· != 0)

/-- Blank, tab, line feed, vertical tab, form feed and carriage return. -/
def isSpace (c : UInt8) : Bool := c == 32 || (9 ≤ c && c ≤ 13)

/-- Nothing but whitespace. -/
def Blank (t : Text) : Prop := ∀ c ∈ t, isSpace c = true

def isDigit (c : UInt8) : Bool := 48 ≤ c && c ≤ 57

/-- A text without the whitespace at its end. -/
def trimEnd (t : Text) : Text := (t.reverse.dropWhile isSpace).reverse

/-- The order of two terminated strings: the difference of the first two bytes that differ,
where the end of a string counts as a zero byte. -/
def difference : Text → Text → Int
  | [], [] => 0
  | [], b :: _ => -(b.toNat : Int)
  | a :: _, [] => a.toNat
  | a :: s, b :: t => if a = b then difference s t else (a.toNat : Int) - b.toNat

/-- Whether `needle` stands somewhere inside a text. -/
def occursIn (needle : Text) : Text → Bool
  | [] => needle.isEmpty
  | c :: t => needle.isPrefixOf (c :: t) || occursIn needle t

/-- The lines of a text: the pieces that a line feed ends.  What follows the last line feed is
no line yet. -/
def lines (t : Text) : List Text := (t.splitOn 10).dropLast

theorem upToNul_append_zero {t : Text} (h : (0 : UInt8) ∉ t) (rest : Text) :
    upToNul (t ++ 0 :: rest) = t := by
  induction t with
  | nil => simp [upToNul]
  | cons c t ih =>
    simp only [List.mem_cons, not_or] at h
    have hc : (c != 0) = true := by simpa using fun e => h.1 e.symm
    have := ih h.2
    simp only [upToNul] at this
    simp [upToNul, hc, this]

theorem zero_not_mem_upToNul (t : Text) : (0 : UInt8) ∉ upToNul t := by
  induction t with
  | nil => simp [upToNul]
  | cons c t ih =>
    simp only [upToNul, List.takeWhile_cons] at ih ⊢
    split
    · rename_i h
      have h0 : c ≠ 0 := by simpa using h
      simpa [List.mem_cons, ih] using fun e : (0 : UInt8) = c => h0 e.symm
    · simp

end Text

end Supervisor
