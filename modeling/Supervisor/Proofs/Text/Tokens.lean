/-
Tokens, split and trimmed.

Tokens are taken off a text one by one until nothing is left of it.  That comes to splitting the
text at every delimiter and trimming the pieces, up to pieces in which there is nothing to see.
Leading whitespace is skipped before the delimiter is looked for, and so a delimiter that is
whitespace itself may be skipped with it; no other one ever is.

* `Token.Yields` — the tokens that are taken off a text until nothing is left;
* `Text.trim`, `Token.pieces` — what they are compared with;
* `Token.next_cases` — one token, as the first piece of what follows the leading whitespace;
* `Token.Yields.filled_eq` — what there is to see in the tokens, for any delimiter;
* `Token.Yields.eq_map_trim` — all tokens, for a delimiter that is no whitespace;
* `Token.tokens_are_trimmed_pieces` — both together.
-/
import Supervisor.Text.Token
import Mathlib.Data.List.DropRight
import Mathlib.Data.List.TakeWhile

namespace Supervisor

/-! ### Trimming -/

namespace Text

/-- A text without the whitespace at either end. -/
def trim (t : Text) : Text := (t.dropWhile isSpace).rdropWhile isSpace

/-- The texts in which there is something to see. -/
def filled (ts : List Text) : List Text := ts.filter (· ≠ [])

@[simp] theorem trim_nil : trim [] = [] := rfl

theorem trim_cons_of_isSpace {c : UInt8} (h : isSpace c = true) (t : Text) :
    trim (c :: t) = trim t := by
  rw [trim, trim, List.dropWhile_cons_of_pos h]

theorem trim_append_of_blank {before : Text} (h : Blank before) (t : Text) :
    trim (before ++ t) = trim t := by
  rw [trim, trim, List.dropWhile_append_of_pos h]

/-- Only the end is left to trim of a text that does not begin with whitespace. -/
theorem trim_eq_trimEnd {t : Text} (h : ∀ c ∈ t.head?, isSpace c = false) : trim t = trimEnd t := by
  cases t with
  | nil => rfl
  | cons c t =>
    have hc : ¬isSpace c = true := Bool.eq_false_iff.1 (h c rfl)
    rw [trim, List.dropWhile_cons_of_neg hc]
    rfl

theorem filled_cons (t : Text) (ts : List Text) : filled (t :: ts) = filled [t] ++ filled ts := by
  rw [filled, filled, filled, List.filter_cons]
  by_cases h : t = [] <;> simp [h]

@[simp] theorem filled_blank : filled [[]] = [] := rfl

end Text

namespace Token

open Text

/-! ### One token -/

/-- The tokens that are taken off a text, one after the other, until nothing is left of it. -/
inductive Yields (d : UInt8) : Text → List Text → Prop
  | done : Yields d [] []
  | token {t : Text} {tokens : List Text} (left : t ≠ []) (rest : Yields d (next d t).2 tokens) :
    Yields d t ((next d t).1 :: tokens)

/-- A token is the first piece, trimmed, of what follows the leading whitespace. -/
theorem next_cases (d : UInt8) (t : Text) :
    ∃ before body, t = before ++ body ∧ Blank before ∧
      ((d ∉ body ∧ next d t = (trim body, [])) ∨
        ∃ piece rest, body = piece ++ d :: rest ∧ d ∉ piece ∧ next d t = (trim piece, rest)) := by
  have hbefore : Blank (t.takeWhile isSpace) := fun c hc => List.mem_takeWhile_imp hc
  refine ⟨t.takeWhile isSpace, t.dropWhile isSpace, List.takeWhile_append_dropWhile.symm, hbefore,
    ?_⟩
  have hhead : ∀ c ∈ (t.dropWhile isSpace).head?, isSpace c = false := by
    intro c hc
    obtain ⟨rest, hbody⟩ := List.head?_eq_some_iff.1 hc
    have hsome : t.dropWhile isSpace ≠ [] := by
      rw [hbody]
      exact List.cons_ne_nil _ _
    have hfirst := List.head_dropWhile_not isSpace hsome
    simpa only [hbody, List.head_cons] using hfirst
  rw [next]
  generalize t.dropWhile isSpace = body at hhead ⊢
  have hnone : d ∉ body.takeWhile (· != d) := fun hmem =>
    absurd (List.mem_takeWhile_imp hmem) (by simp)
  -- what stands before the delimiter begins as the body does
  have htoken : trimEnd (body.takeWhile (· != d)) = trim (body.takeWhile (· != d)) := by
    refine (trim_eq_trimEnd fun c hc => hhead c ?_).symm
    cases body with
    | nil => exact hc
    | cons b body =>
      rw [List.takeWhile_cons] at hc
      split at hc
      · exact hc
      · cases hc
  have hsplit : body.takeWhile (· != d) ++ body.dropWhile (· != d) = body :=
    List.takeWhile_append_dropWhile
  have hdrop : body.drop (body.takeWhile (· != d)).length = body.dropWhile (· != d) :=
    calc body.drop (body.takeWhile (· != d)).length
        = (body.takeWhile (· != d) ++ body.dropWhile (· != d)).drop
            (body.takeWhile (· != d)).length := by rw [hsplit]
      _ = body.dropWhile (· != d) := List.drop_left
  simp only [htoken, hdrop]
  cases hrest : body.dropWhile (· != d) with
  | nil =>
    rw [hrest, List.append_nil] at hsplit
    rw [hsplit] at hnone ⊢
    exact .inl ⟨hnone, rfl⟩
  | cons c rest =>
    obtain rfl : c = d := by
      have hfirst := List.head_dropWhile_not (· != d) (l := body)
        (by rw [hrest]; exact List.cons_ne_nil _ _)
      simpa only [hrest, List.head_cons, bne_eq_false_iff_eq] using hfirst
    rw [hrest] at hsplit
    exact .inr ⟨_, rest, hsplit.symm, hnone, rfl⟩

/-! ### All tokens -/

theorem exists_yields (d : UInt8) (t : Text) : ∃ tokens, Yields d t tokens := by
  by_cases h : t = []
  · exact ⟨[], h ▸ .done⟩
  · obtain ⟨tokens, hrest⟩ := exists_yields d (next d t).2
    exact ⟨_, .token h hrest⟩
termination_by t.length
decreasing_by exact length_next_lt d h

theorem Yields.unique {d : UInt8} {t : Text} {tokens others : List Text} (h : Yields d t tokens)
    (h' : Yields d t others) : others = tokens := by
  induction h generalizing others with
  | done =>
    cases h' with
    | done => rfl
    | token left _ => exact absurd rfl left
  | token left _ ih =>
    cases h' with
    | done => exact absurd rfl left
    | token _ rest => rw [ih rest]

/-- Whitespace in front adds no piece in which there is something to see. -/
theorem filled_pieces_append {before : Text} (h : Blank before) (d : UInt8) (t : Text) :
    filled (((before ++ t).splitOn d).map trim) = filled ((t.splitOn d).map trim) := by
  induction before with
  | nil => rfl
  | cons c before ih =>
    obtain ⟨hc, hbefore⟩ := List.forall_mem_cons.1 h
    rw [← ih hbefore, List.cons_append, List.splitOn_cons_eq_if_modifyHead]
    split
    · rw [List.map_cons, filled_cons, trim_nil, filled_blank, List.nil_append]
    · -- the piece that it is added to is trimmed
      obtain ⟨piece, pieces, hpieces⟩ :=
        List.exists_cons_of_ne_nil (List.splitOn_ne_nil d (before ++ t))
      rw [hpieces, List.modifyHead_cons, List.map_cons, List.map_cons, trim_cons_of_isSpace hc]

/-- What there is to see in the tokens is what there is to see in the trimmed pieces. -/
theorem Yields.filled_eq {d : UInt8} {t : Text} {tokens : List Text} (h : Yields d t tokens) :
    filled tokens = filled ((t.splitOn d).map trim) := by
  induction h with
  | done => rfl
  | @token t tokens _ _ ih =>
    obtain ⟨before, body, ht, hbefore, hnext⟩ := next_cases d t
    rw [filled_cons, ih]
    conv_rhs => rw [ht]
    rw [filled_pieces_append hbefore]
    obtain ⟨hnone, hnext⟩ | ⟨piece, rest, rfl, hnone, hnext⟩ := hnext
    · rw [hnext, List.splitOn_eq_singleton hnone]
      simp
    · rw [hnext, List.splitOn_append_cons_self_of_not_mem hnone, List.map_cons, ← filled_cons]

/-- The pieces of a text between its delimiters.  What follows the last delimiter is one only if it
is not empty. -/
def pieces (d : UInt8) (t : Text) : List Text :=
  if (t.splitOn d).getLast? = some [] then (t.splitOn d).dropLast else t.splitOn d

theorem pieces_nil (d : UInt8) : pieces d [] = [] := rfl

theorem pieces_of_not_mem {d : UInt8} {t : Text} (h : d ∉ t) (ht : t ≠ []) : pieces d t = [t] := by
  rw [pieces, List.splitOn_eq_singleton h, List.getLast?_singleton,
    if_neg fun heq => ht (Option.some.inj heq)]

theorem pieces_append_cons {d : UInt8} {piece : Text} (h : d ∉ piece) (rest : Text) :
    pieces d (piece ++ d :: rest) = piece :: pieces d rest := by
  have hne : rest.splitOn d ≠ [] := List.splitOn_ne_nil d rest
  rw [pieces, pieces, List.splitOn_append_cons_self_of_not_mem h, List.dropLast_cons_of_ne_nil hne,
    List.getLast?_cons_of_ne_nil hne]
  split <;> rfl

/-- With a delimiter that is no whitespace the tokens are the trimmed pieces. -/
theorem Yields.eq_map_trim {d : UInt8} (hd : isSpace d = false) {t : Text} {tokens : List Text}
    (h : Yields d t tokens) : tokens = (pieces d t).map trim := by
  induction h with
  | done => rfl
  | @token t tokens left _ ih =>
    obtain ⟨before, body, ht, hbefore, hnext⟩ := next_cases d t
    -- the whitespace that is skipped holds no delimiter, so it belongs to the first piece
    have hskipped : d ∉ before := fun hmem => by
      rw [hbefore d hmem] at hd
      cases hd
    rw [ih]
    obtain ⟨hnone, hnext⟩ | ⟨piece, rest, rfl, hnone, hnext⟩ := hnext
    · have hmem : d ∉ t := by
        rw [ht, List.mem_append]
        exact not_or.2 ⟨hskipped, hnone⟩
      rw [hnext, pieces_nil, pieces_of_not_mem hmem left, ht, List.map_singleton,
        trim_append_of_blank hbefore]
      rfl
    · have hmem : d ∉ before ++ piece := by
        rw [List.mem_append]
        exact not_or.2 ⟨hskipped, hnone⟩
      rw [hnext, ht, ← List.append_assoc, pieces_append_cons hmem, List.map_cons,
        trim_append_of_blank hbefore]

/-- **Taking tokens off a text is splitting and trimming.**  Each token that is taken off a text
which is not empty leaves less of it, and so there is one list of tokens that are taken off until
nothing is left.  For every delimiter the tokens in which there is something to see are, in their
order, the pieces between the delimiters in which something is left once they are trimmed.  If the
delimiter is no whitespace, then all tokens are all trimmed pieces, but for an empty one at the end
of the text. -/
theorem tokens_are_trimmed_pieces (d : UInt8) (s : Text) :
    (∀ t, t ≠ [] → (next d t).2.length < t.length) ∧
    ∃ tokens, Yields d s tokens ∧ (∀ others, Yields d s others → others = tokens) ∧
      filled tokens = filled ((s.splitOn d).map trim) ∧
      (isSpace d = false → tokens = (pieces d s).map trim) := by
  obtain ⟨tokens, h⟩ := exists_yields d s
  exact ⟨fun _ => length_next_lt d, tokens, h, fun _ => h.unique, h.filled_eq,
    fun hd => h.eq_map_trim hd⟩

end Token

end Supervisor
