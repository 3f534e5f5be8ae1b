/-
Numerals.

The numeral of a number in a base from 2 to 36 has the digits `0` to `9` and `a` to `z`, most
significant first, and no leading zero except for zero itself.

* `Numeral.inBase` — the numeral as a text, and `decimal`, `hex`, `pointer`, `signed` over it;
* `Numeral.writeWithin`, `Numeral.write` — the numeral put into the first bytes of a block, or into
  a buffer, or a refusal when it does not fit;
* `Numeral.writeSigned` — the same in base ten with a minus sign in front of a negative number;
* `Numeral.writeHexWithin`, `Numeral.writeHex` — the same in base sixteen with an optional `0x` in
  front.

Design notes: the digits come out least significant first and are turned round in place.  A block
may be longer than the part of it that may be written to, so that a write beyond that part would
show.
-/
import Supervisor.Text.Buffer

namespace Supervisor.Numeral

/-- The character of a digit below 36. -/
def digit (d : Nat) : UInt8 := if d < 10 then (48 + d).toUInt8 else (87 + d).toUInt8

/-- The digits of `v`, least significant first, at most `fuel` of them; none for zero. -/
def digitsBelow (base : Nat) : (fuel : Nat) → (v : Nat) → Text
  | 0, _ => []
  | fuel + 1, v => if v = 0 then [] else digit (v % base) :: digitsBelow base fuel (v / base)

/-- The digits of `v`, least significant first; the digit zero for zero. -/
def lowDigits (base v : Nat) : Text := if v = 0 then [48] else digitsBelow base v v

/-- The numeral of `v` in a base. -/
def inBase (base v : Nat) : Text := (lowDigits base v).reverse

def decimal (v : Nat) : Text := inBase 10 v

/-- Base sixteen, in lower case. -/
def hex (v : Nat) : Text := inBase 16 v

/-- An address: base sixteen after `0x`. -/
def pointer (v : UInt64) : Text := "0x" ++ hex v.toNat

/-- Base ten with a minus sign in front of a negative number. -/
def signed (v : Int) : Text := if v < 0 then "-" ++ decimal v.natAbs else decimal v.natAbs

/-- The bases that numerals are written in. -/
def validBase (base : Int) : Bool := 2 ≤ base && base ≤ 36

/-- Puts the digits of `v` into a block from place `i` on, least significant first and at most
`fuel` of them, and a NUL behind them; gives the place of the NUL.  Before each digit it is asked
whether the place behind it still lies within the first `size` bytes.  If not, there is no place to
give. -/
def putDigits (base size : Nat) : (fuel : Nat) → (b : Buffer) → (i v : Nat) → Option Nat × Buffer
  | 0, b, i, _ => (some i, b.set i 0)
  | fuel + 1, b, i, v =>
    if v = 0 then (some i, b.set i 0)
    else if size ≤ i + 1 then (none, b.set (min i (size - 1)) 0)
    else putDigits base size fuel (b.set i (digit (v % base))) (i + 1) (v / base)

/-- Turns `count` bytes of a block round in place, from place `i` on: exchanges the outermost two
and goes on with those between them. -/
def turnRound : (count : Nat) → (b : Buffer) → (i : Nat) → Buffer
  | count + 2, b, i =>
    let first := b.getD i 0
    let last := b.getD (i + count + 1) 0
    turnRound count ((b.set i last).set (i + count + 1) first) (i + 1)
  | _, b, _ => b

/-- Puts the numeral of `v` into the first `size` bytes of a block and gives its length.  It is
refused when the base is not valid or the numeral with its closing NUL needs more bytes; then they
keep a terminated string of the low digits that fitted, or the empty string. -/
def writeWithin (b : Buffer) (size : Nat) (base : Int) (v : Nat) : Option Nat × Buffer :=
  if size = 0 then (none, b)
  else if validBase base then
    if v = 0 then
      if size ≤ 1 then (none, b.set 0 0) else (some 1, (b.set 0 48).set 1 0)
    else
      match putDigits base.toNat size v b 0 v with
      | (some n, b) => (some n, turnRound n b 0)
      | (none, b) => (none, b)
  else (none, b.set 0 0)

/-- Puts the numeral of `v` into a buffer and gives its length. -/
def write (b : Buffer) (base : Int) (v : Nat) : Option Nat × Buffer :=
  writeWithin b b.length base v

/-- Puts the decimal numeral of a number into a buffer, a minus sign first if it is negative, and
gives the length of the whole. -/
def writeSigned (b : Buffer) (v : Int) : Option Nat × Buffer :=
  if v < 0 then
    if b.length < 2 then (none, b.set 0 0)
    else
      match write (b.drop 1) 10 v.natAbs with
      | (some n, rest) => (some (n + 1), (45 : UInt8) :: rest)
      | (none, rest) => (none, (45 : UInt8) :: rest)
  else write b 10 v.natAbs

/-- Puts the hexadecimal numeral of `v`, after `0x` if asked, into the first `size` bytes of a block
and gives the length of the whole.  When it does not fit they hold the empty string. -/
def writeHexWithin (b : Buffer) (size v : Nat) (marked : Bool) : Option Nat × Buffer :=
  if size = 0 then (none, b)
  else if marked then
    if size < 3 then (none, b.set 0 0)
    else
      match writeWithin (b.drop 2) (size - 2) 16 v with
      | (some n, rest) => (some (n + 2), (48 : UInt8) :: 120 :: rest)
      | (none, rest) => (none, (0 : UInt8) :: 120 :: rest)
  else
    match writeWithin b size 16 v with
    | (some n, b') => (some n, b')
    | (none, b') => (none, b'.set 0 0)

/-- Puts the hexadecimal numeral of `v` into a buffer, after `0x` if asked. -/
def writeHex (b : Buffer) (v : Nat) (marked : Bool) : Option Nat × Buffer :=
  writeHexWithin b b.length v marked

end Supervisor.Numeral
