/-
Reading numbers.

A number is written as optional whitespace, then decimal digits, or `0x` or `0X` and
hexadecimal digits, then optional whitespace, and nothing else.  It has to fit its word.

* `Number.word64?`, `Number.word32?` — the number that a text denotes, if it is one;
* `Number.read64`, `Number.read32` — the same into a variable.
-/
import Supervisor.Text

namespace Supervisor.Number

def maxWord64 : Nat := 18446744073709551615

def maxWord32 : Nat := 4294967295

/-- The value of a digit; letters count in base sixteen only. -/
def digitValue? (base : Nat) (c : UInt8) : Option Nat :=
  if Text.isDigit c then some (c.toNat - 48)
  else if base = 16 && 97 ≤ c && c ≤ 102 then some (c.toNat - 87)
  else if base = 16 && 65 ≤ c && c ≤ 70 then some (c.toNat - 55)
  else none

/-- Where the digits of a number end. -/
structure Scan where
  /-- The value of the digits read. -/
  value : Nat
  /-- How many digits there were. -/
  digits : Nat
  /-- What follows them. -/
  rest : Text
deriving Repr, DecidableEq

/-- Reads digits onto `value` for as long as they come; nothing once the value would pass the
largest 64-bit word. -/
def scanDigits (base : Nat) (value digits : Nat) : Text → Option Scan
  | [] => some ⟨value, digits, []⟩
  | c :: t =>
    match digitValue? base c with
    | none => some ⟨value, digits, c :: t⟩
    | some d =>
      if (maxWord64 - d) / base < value then none
      else scanDigits base (value * base + d) (digits + 1) t

/-- The base that a number is written in, and the text of its digits. -/
def splitBase : Text → Nat × Text
  | 48 :: x :: t => if x = 120 || x = 88 then (16, t) else (10, 48 :: x :: t)
  | t => (10, t)

def word64? (t : Text) : Option UInt64 := do
  let (base, digits) := splitBase (t.dropWhile Text.isSpace)
  let scan ← scanDigits base 0 0 digits
  guard (scan.digits ≠ 0)
  guard (scan.rest.all Text.isSpace)
  return scan.value.toUInt64

def word32? (t : Text) : Option UInt32 := do
  let v ← word64? t
  guard (v.toNat ≤ maxWord32)
  return v.toUInt32

/-- Puts what was read into a variable, and says whether there was a number; without one the
variable stays as it is. -/
def storeIn {α : Type} (held : α) : Option α → Bool × α
  | some v => (true, v)
  | none => (false, held)

def read64 (t : Text) (held : UInt64) : Bool × UInt64 := storeIn held (word64? t)

def read32 (t : Text) (held : UInt32) : Bool × UInt32 := storeIn held (word32? t)

end Supervisor.Number
