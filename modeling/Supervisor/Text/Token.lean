/-
Tokens.

`Token.next` takes one token off the front of a text: leading whitespace is skipped, the token
runs to the next delimiter, which is dropped, and whitespace at the token's end is cut off.  A
blank text has only the empty token and leaves nothing behind.
-/
import Supervisor.Text

namespace Supervisor.Token

/-- The next token of a text and what follows its delimiter. -/
def next (delimiter : UInt8) (t : Text) : Text × Text :=
  let t := t.dropWhile Text.isSpace
  let token := t.takeWhile (· != delimiter)
  (Text.trimEnd token, (t.drop token.length).drop 1)

theorem length_dropWhile_le (p : UInt8 → Bool) (t : Text) : (t.dropWhile p).length ≤ t.length :=
  (List.dropWhile_sublist p).length_le

/-- Taking a token off a text that is not empty makes it shorter. -/
theorem length_next_lt (delimiter : UInt8) {t : Text} (h : t ≠ []) :
    (next delimiter t).2.length < t.length := by
  have hlen : 0 < t.length := List.length_pos_iff.2 h
  have hle := length_dropWhile_le Text.isSpace t
  have htoken : (t.dropWhile Text.isSpace) = [] ∨
      0 < (t.dropWhile Text.isSpace).length := by
    rcases hd : t.dropWhile Text.isSpace with _ | ⟨c, r⟩
    · exact Or.inl rfl
    · exact Or.inr (by simp)
  simp only [next, List.length_drop]
  rcases htoken with h0 | h0
  · simp [h0, hlen]
  · omega

/-- The next `count` tokens, each with the text left after it. -/
def take (delimiter : UInt8) : (count : Nat) → Text → List (Text × Text)
  | 0, _ => []
  | count + 1, t =>
    let step := next delimiter t
    step :: take delimiter count step.2

end Supervisor.Token
