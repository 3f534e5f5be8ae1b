/-
Formatted text.

A format is a text in which `%` starts a conversion: `%s` a string, `%c` one byte, `%d` and
`%i` a signed and `%u` an unsigned decimal numeral, `%x` and `%X` a hexadecimal one in lower
case, `%p` an address, `%%` a percent sign.  Numbers are words of 32 bits, or of 64 bits after
`ll`.  Any other byte after `%` stands for itself, percent sign included; a `%` or `%ll` at the
very end stands for nothing.

* `Format.parse` — a format as a list of pieces;
* `Format.Piece.render` — what one piece prints and the arguments it leaves;
* `Format.writeWithin`, `Format.write` — a format printed into the first bytes of a block, or into a
  buffer, cut to what fits;
* `Format.writeTo` — the same where there may be no block at all.

Design notes: printing moves a `Cursor` over the block and puts one byte at a time, so a cut
may fall anywhere, also inside a numeral.  A numeral is made in a buffer of its own first.
-/
import Supervisor.Text.Numeral

namespace Supervisor.Format

/-- An argument: a word, or a string that may be absent. -/
inductive Arg where
  | word (value : UInt64)
  | string (value : Option Text)
deriving Repr, DecidableEq

/-- The word that a numeric conversion sees. -/
def Arg.asWord : Arg → UInt64
  | .word w => w
  | .string _ => 0

/-- The string that `%s` sees. -/
def Arg.asString : Arg → Option Text
  | .word _ => none
  | .string s => s

/-- A piece of a format: a byte that stands for itself, or a conversion, named by the byte
after the percent sign, of a wide or a narrow argument. -/
inductive Piece where
  | literal (c : UInt8)
  | conversion (wide : Bool) (c : UInt8)
deriving Repr, DecidableEq

/-- The pieces of a format. -/
def parse : Text → List Piece
  | [] => []
  | [c] => if c = 37 then [] else [.literal c]
  | c :: d :: t =>
    if c ≠ 37 then .literal c :: parse (d :: t)
    else if d ≠ 108 then .conversion false d :: parse t
    else
      match t with
      | [] => [.conversion false 108]
      | e :: t =>
        if e ≠ 108 then .conversion false 108 :: parse (e :: t)
        else
          match t with
          | [] => []
          | f :: t => .conversion true f :: parse t

/-- The number that a signed conversion sees in a word. -/
def signedValue (wide : Bool) (w : UInt64) : Int :=
  if wide then w.toInt64.toInt else w.toUInt32.toInt32.toInt

/-- The number that an unsigned conversion sees in a word. -/
def unsignedValue (wide : Bool) (w : UInt64) : Nat :=
  if wide then w.toNat else w.toUInt32.toNat

/-- The buffer in which a numeral is made. -/
def scratch : Buffer := Buffer.blank 24

/-- What is printed of a numeral that was put into a buffer: nothing if it was refused. -/
def taken : Option Nat × Buffer → Text
  | (some n, b) => b.take n
  | (none, _) => []

/-- What a conversion that takes an argument prints for it; nothing for the other bytes. -/
def convert? (wide : Bool) (c : UInt8) (a : Arg) : Option Text :=
  if c = 115 then some (a.asString.getD "(null)")
  else if c = 99 then some [a.asWord.toUInt8]
  else if c = 100 || c = 105 then
    some (taken (Numeral.writeSigned scratch (signedValue wide a.asWord)))
  else if c = 117 then some (taken (Numeral.write scratch 10 (unsignedValue wide a.asWord)))
  else if c = 120 || c = 88 then
    some (taken (Numeral.writeHex scratch (unsignedValue wide a.asWord) false))
  else if c = 112 then some (taken (Numeral.writeHex scratch a.asWord.toNat true))
  else none

/-- What a piece prints, and the arguments left for the pieces after it.  A missing argument
counts as the word zero. -/
def Piece.render : Piece → List Arg → Text × List Arg
  | .literal c, args => ([c], args)
  | .conversion wide c, args =>
    match convert? wide c (args.headD (.word 0)) with
    | some t => (t, args.drop 1)
    | none => (if c = 37 then [37] else [37, c], args)

/-- A block being written to. -/
structure Cursor where
  /-- The block as written so far. -/
  buffer : Buffer
  /-- How many of its bytes may be written to. -/
  size : Nat
  /-- Where the next byte goes. -/
  written : Nat

/-- Puts one byte, unless only the place of the closing NUL is left. -/
def Cursor.put (k : Cursor) (c : UInt8) : Cursor :=
  if k.written + 1 < k.size then
    { k with buffer := k.buffer.set k.written c, written := k.written + 1 }
  else k

@[simp] theorem Cursor.length_put (k : Cursor) (c : UInt8) :
    (k.put c).buffer.length = k.buffer.length := by
  unfold put
  split <;> simp

@[simp] theorem Cursor.length_foldl_put (k : Cursor) (t : Text) :
    (t.foldl put k).buffer.length = k.buffer.length := by
  induction t generalizing k with
  | nil => rfl
  | cons c t ih => simp [ih]

/-- Prints pieces one after the other. -/
def Cursor.print (k : Cursor) : List Piece → List Arg → Cursor
  | [], _ => k
  | p :: ps, args =>
    let (t, rest) := p.render args
    print (t.foldl put k) ps rest

@[simp] theorem Cursor.length_print (k : Cursor) (ps : List Piece) (args : List Arg) :
    (k.print ps args).buffer.length = k.buffer.length := by
  induction ps generalizing k args with
  | nil => rfl
  | cons p ps ih => simp [print, ih]

/-- Prints a format into the first `size` bytes of a block and closes it with a NUL; gives the
number of bytes before the NUL.  Without room for the NUL nothing is written, and without a format
nothing else. -/
def writeWithin (b : Buffer) (size : Nat) (format : Option Text) (args : List Arg) :
    Nat × Buffer :=
  if size = 0 then (0, b)
  else
    match format with
    | none => (0, b.set 0 0)
    | some f =>
      let k := Cursor.print ⟨b, size, 0⟩ (parse f) args
      (k.written, k.buffer.set k.written 0)

/-- Prints a format into a buffer. -/
def write (b : Buffer) (format : Option Text) (args : List Arg) : Nat × Buffer :=
  writeWithin b b.length format args

/-- Prints a format into the first `size` bytes of a block, if there is one. -/
def writeTo (b : Option Buffer) (size : Nat) (format : Option Text) (args : List Arg) :
    Nat × Option Buffer :=
  match b with
  | none => (0, none)
  | some b =>
    let (n, b) := writeWithin b size format args
    (n, some b)

@[simp] theorem length_writeWithin (b : Buffer) (size : Nat) (format : Option Text)
    (args : List Arg) : (writeWithin b size format args).2.length = b.length := by
  unfold writeWithin
  split
  · rfl
  · cases format <;> simp

end Supervisor.Format
