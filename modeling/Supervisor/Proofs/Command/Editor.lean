/-
The line editor and its display.

The editor keeps a line and writes to the console, and nothing ties the one to the other but that
each byte does to the display what it does to the line.  What a stream of bytes comes to is told
here by the line alone (`typed`, `course`), and the display by the row of a terminal that replays
the console.

* `TerminalRow`, `TerminalRow.Shows` — a row with its cursor, and when it shows a line;
* `LineEditor.edited` — the line that a stream leaves;
* `LineEditor.course` — the acts that a stream asks for;
* `LineEditor.calls_course` — the lines that are run;
* `LineEditor.shows_course` — a row that replays the echo shows the line;
* `LineEditor.runOn_takeByte`, `LineEditor.feed_course` — bytes on a machine;
* `editor_and_display_agree` — all of it, for every stream.

Design notes: a terminal may do with the bytes that are neither printable nor a backspace whatever
it likes.  What a command does to the line that is being edited is lost when it returns, so nothing
is asked of it here.
-/
import Supervisor.Command.Console
import Supervisor.Proofs.Action
import Mathlib.Data.List.Basic

namespace Supervisor

variable {σ : Type}

/-! ### A row of a terminal -/

/-- Whether a byte takes a cell of a terminal. -/
def Text.isPrintable (c : UInt8) : Bool := 32 ≤ c && c ≤ 126

/-- A row of a terminal with its cursor.  What lies beyond the cells to the right is blank. -/
structure TerminalRow where
  /-- The cells to the left of the cursor, the nearest one first. -/
  left : Text
  /-- The cells from the cursor on. -/
  right : Text
deriving Repr, DecidableEq

namespace TerminalRow

/-- A row after a byte.  A printable byte overwrites the cell at the cursor and moves right, and a
backspace moves left if it can; the other bytes are up to the terminal. -/
def feed (other : UInt8 → TerminalRow → TerminalRow) (r : TerminalRow) (c : UInt8) : TerminalRow :=
  if Text.isPrintable c then ⟨c :: r.left, r.right.tail⟩
  else if c = 8 then
    match r.left with
    | [] => r
    | b :: left => ⟨left, b :: r.right⟩
  else other c r

/-- A row after a text. -/
def replay (other : UInt8 → TerminalRow → TerminalRow) (r : TerminalRow) (t : Text) :
    TerminalRow := t.foldl (feed other) r

/-- A row shows a line: the line stands to the left of the cursor, after what stood there `before`
it, and from the cursor on the row is blank. -/
structure Shows (r : TerminalRow) (before line : Text) : Prop where
  left : r.left = line.reverse ++ before
  blank : ∀ c ∈ r.right, c = 32

variable {other : UInt8 → TerminalRow → TerminalRow} {r : TerminalRow} {before line : Text}

theorem Shows.printable (h : r.Shows before line) {c : UInt8} (hc : Text.isPrintable c = true) :
    (r.replay other [c]).Shows before (line ++ [c]) := by
  have hfeed : r.replay other [c] = ⟨c :: r.left, r.right.tail⟩ := if_pos hc
  rw [hfeed]
  refine ⟨?_, fun d hd => h.blank d (List.mem_of_mem_tail hd)⟩
  rw [h.left, List.reverse_append]
  rfl

/-- A backspace, a blank and another backspace take the last byte of the line off the row. -/
theorem Shows.erase (h : r.Shows before line) (hline : line ≠ []) :
    (r.replay other "\x08 \x08").Shows before line.dropLast := by
  obtain ⟨front, last, rfl⟩ := List.eq_nil_or_concat line |>.resolve_left hline
  rw [List.concat_eq_append] at h ⊢
  obtain ⟨left, right⟩ := r
  -- the last byte of the line is in the nearest cell
  obtain rfl : left = last :: (front.reverse ++ before) := by
    have hleft : left = _ := h.left
    rw [hleft, List.reverse_append]
    rfl
  have hreplay : (TerminalRow.mk (last :: (front.reverse ++ before)) right).replay other
      "\x08 \x08" = ⟨front.reverse ++ before, 32 :: right⟩ := rfl
  rw [hreplay, List.dropLast_concat]
  exact ⟨rfl, List.forall_mem_cons.2 ⟨rfl, h.blank⟩⟩

end TerminalRow

/-! ### What a stream of bytes comes to -/

namespace LineEditor

open CommandTable

/-- Whether a byte ends the line. -/
def isEnd (c : UInt8) : Bool := c = 13 || c = 10

/-- Whether a byte takes the last one of the line back. -/
def isErase (c : UInt8) : Bool := c = 8 || c = 127

/-- The line after a byte. -/
def typed (line : Text) (c : UInt8) : Text :=
  if isEnd c then []
  else if isErase c then line.dropLast
  else if line.length < lineCapacity then line ++ [c]
  else line

/-- The line after a stream of bytes. -/
def edited (bytes : List UInt8) : Text := bytes.foldl typed []

theorem length_foldl_typed_le {line : Text} (h : line.length ≤ lineCapacity)
    (bytes : List UInt8) : (bytes.foldl typed line).length ≤ lineCapacity := by
  induction bytes generalizing line with
  | nil => exact h
  | cons c bytes ih =>
    refine ih ?_
    rw [typed]
    split
    · exact Nat.zero_le _
    · split
      · rw [List.length_dropLast]
        omega
      · split
        · rw [List.length_append, List.length_singleton]
          omega
        · exact h

/-- A line end leaves an empty line. -/
theorem foldl_typed_of_end {bytes : List UInt8} (h : ∀ c ∈ bytes.getLast?, isEnd c = true) :
    bytes.foldl typed [] = [] := by
  rcases List.eq_nil_or_concat bytes with rfl | ⟨front, last, rfl⟩
  · rfl
  · rw [List.concat_eq_append] at h ⊢
    have hlast : isEnd last = true := h last (by simp)
    rw [List.foldl_append, List.foldl_cons, List.foldl_nil, typed, if_pos hlast]

/-- What the editor does by and by. -/
inductive Act where
  | puts (t : Text)
  | put (c : UInt8)
  /-- Keeps a line as the edited one. -/
  | hold (line : Text)
  /-- Runs a line. -/
  | run (line : Text)
deriving Repr, DecidableEq

namespace Act

/-- The line that an act runs. -/
def call? : Act → Option Text
  | run line => some line
  | _ => none

/-- What an act of the editor itself writes to the console. -/
def text : Act → Text
  | puts t => Text.upToNul t
  | put c => [c]
  | _ => []

/-- The edited line after an act of the editor itself. -/
def line (old : Text) : Act → Text
  | hold new => new
  | _ => old

end Act

/-- The acts for a byte. -/
def respond (line : Text) (c : UInt8) : List Act :=
  if isEnd c then
    .puts "\n" :: ((if line = [] then [] else [.run line]) ++ [.hold [], .puts "> "])
  else if isErase c then
    if line = [] then [] else [.hold line.dropLast, .puts "\x08 \x08"]
  else if line.length < lineCapacity then [.hold (line ++ [c]), .put c]
  else []

/-- The acts for a stream of bytes. -/
def course (line : Text) : List UInt8 → List Act
  | [] => []
  | c :: bytes => respond line c ++ course (typed line c) bytes

variable {line : Text} {c : UInt8} {bytes : List UInt8}

theorem calls_respond (line : Text) (c : UInt8) :
    (respond line c).filterMap Act.call? = if isEnd c ∧ line ≠ [] then [line] else [] := by
  rw [respond]
  by_cases hend : isEnd c = true
  · rw [if_pos hend]
    by_cases hline : line = []
    · rw [if_pos hline, if_neg fun h => h.2 hline]
      rfl
    · rw [if_neg hline, if_pos ⟨hend, hline⟩]
      rfl
  · have hnone : (if isEnd c ∧ line ≠ [] then [line] else []) = [] := if_neg fun h => hend h.1
    rw [if_neg hend, hnone]
    repeat' split
    all_goals rfl

/-- The acts for a byte that does not end the line hold the line that it makes. -/
theorem foldl_line_respond (hend : ¬isEnd c = true) :
    (respond line c).foldl Act.line line = typed line c := by
  rw [respond, typed, if_neg hend, if_neg hend]
  by_cases herase : isErase c = true
  · rw [if_pos herase, if_pos herase]
    by_cases hline : line = []
    · subst hline
      rfl
    · rw [if_neg hline]
      rfl
  · rw [if_neg herase, if_neg herase]
    split <;> rfl

/-- The lines that are run are those between the line ends, each typed from an empty one, and only
if something is left of it. -/
theorem calls_course (line : Text) (bytes : List UInt8) :
    ∃ piece pieces, bytes.splitOnP isEnd = piece :: pieces ∧
      (course line bytes).filterMap Act.call? =
        (piece.foldl typed line :: pieces.map edited).dropLast.filter (· ≠ []) := by
  induction bytes generalizing line with
  | nil => exact ⟨[], [], rfl, rfl⟩
  | cons c bytes ih =>
    obtain ⟨piece, pieces, hsplit, hcalls⟩ := ih (typed line c)
    rw [List.splitOnP_cons_eq_if_modifyHead, course, List.filterMap_append, hcalls, calls_respond]
    by_cases hend : isEnd c = true
    · -- the line so far is over, and the next one starts empty
      have htyped : typed line c = [] := if_pos hend
      refine ⟨[], piece :: pieces, by rw [if_pos hend, hsplit], ?_⟩
      rw [htyped, List.map_cons, List.dropLast_cons_cons, List.filter_cons]
      by_cases hline : line = []
      · simp [hline, edited]
      · simp [hend, hline, edited]
    · refine ⟨c :: piece, pieces, by rw [if_neg hend, hsplit]; rfl, ?_⟩
      rw [if_neg fun h => hend h.1]
      rfl

theorem not_isEnd (hc : Text.isPrintable c = true ∨ isErase c = true) : ¬isEnd c = true := by
  intro hend
  have hcases : c = 13 ∨ c = 10 := by simpa [isEnd] using hend
  rcases hcases with rfl | rfl <;> revert hc <;> decide

/-- The echo of a byte that does not end the line does to a row what the byte does to the line. -/
theorem shows_respond {other : UInt8 → TerminalRow → TerminalRow} {r : TerminalRow} {before : Text}
    (h : r.Shows before line) (hc : Text.isPrintable c = true ∨ isErase c = true) :
    (r.replay other ((respond line c).flatMap Act.text)).Shows before (typed line c) := by
  have hend : ¬isEnd c = true := not_isEnd hc
  rw [respond, typed, if_neg hend, if_neg hend]
  by_cases herase : isErase c = true
  · rw [if_pos herase, if_pos herase]
    by_cases hline : line = []
    · subst hline
      exact h
    · rw [if_neg hline]
      exact h.erase hline
  · rw [if_neg herase, if_neg herase]
    split
    · exact h.printable (hc.resolve_right herase)
    · exact h

theorem shows_course {other : UInt8 → TerminalRow → TerminalRow} {r : TerminalRow} {before : Text}
    (h : r.Shows before line) (hbytes : ∀ c ∈ bytes, Text.isPrintable c = true ∨ isErase c = true) :
    (r.replay other ((course line bytes).flatMap Act.text)).Shows before
      (bytes.foldl typed line) := by
  induction bytes generalizing line r with
  | nil => exact h
  | cons c bytes ih =>
    obtain ⟨hc, hrest⟩ := List.forall_mem_cons.1 hbytes
    rw [course, List.flatMap_append, TerminalRow.replay, List.foldl_append]
    exact ih (shows_respond h hc) hrest

/-! ### Bytes on a machine -/

section

variable [Client σ] (table : Part (Machine σ) CommandTable)

/-- Does an act on the machine. -/
def Act.perform : Act → Exec σ Unit
  | puts t => putsUnguarded .console t
  | put c => putByteUnguarded .console c
  | hold line => table.update fun t => { t with line }
  | run line => do let _ ← runLine table line .console

/-- Does acts one after the other. -/
def perform (acts : List Act) : Exec σ Unit := acts.forM (Act.perform table)

/-- Takes a stream of bytes. -/
def feed (bytes : List UInt8) : Exec σ Unit := bytes.forM fun c => takeByte table c .console

/-- Whether the command of the edited line, if there is one, returns once the line is ended. -/
def LineReturns (m : Machine σ) : Prop :=
  (table.get m).line ≠ [] →
    (Exec.runOn (runLine table (table.get m).line .console)
      (Exec.runOn (puts .console "\n") m).2).1.isOk = true

instance (m : Machine σ) : Decidable (LineReturns table m) := inferInstanceAs (Decidable (_ → _))

/-- Whether the commands that a stream runs return. -/
def CommandsReturn : List UInt8 → Machine σ → Prop
  | [], _ => True
  | c :: bytes, m =>
    (isEnd c = true → LineReturns table m) ∧
      CommandsReturn bytes (Exec.runOn (takeByte table c .console) m).2

instance decidableCommandsReturn : ∀ (bytes : List UInt8) (m : Machine σ),
    Decidable (CommandsReturn table bytes m)
  | [], _ => isTrue trivial
  | c :: bytes, m =>
    have := decidableCommandsReturn bytes (Exec.runOn (takeByte table c .console) m).2
    inferInstanceAs (Decidable (_ ∧ _))

end

section

variable [Client σ] {table : Part (Machine σ) CommandTable}

theorem perform_append (acts more : List Act) :
    perform table (acts ++ more) = (do perform table acts; perform table more) :=
  List.forM_append

theorem perform_pair (a b : Act) :
    perform table [a, b] = (do a.perform table; b.perform table) := by
  have hperform : perform table [a, b] =
      (do a.perform table; b.perform table >>= fun _ => pure ()) := rfl
  rw [hperform, bind_pure_unit]

/-- A line that is run gives a status, which goes unnoticed. -/
theorem perform_run (line : Text) (acts : List Act) :
    perform table (.run line :: acts) =
      (do let _ ← runLine table line .console; perform table acts) := by
  have hperform : perform table (.run line :: acts) =
      (do (do let _ ← runLine table line .console); perform table acts) := rfl
  rw [hperform, bind_assoc]
  rfl

theorem feed_append (bytes more : List UInt8) :
    feed table (bytes ++ more) = (do feed table bytes; feed table more) :=
  List.forM_append

variable (apart : table.Apart Machine.thePlatform) (spares : Machine.thePlatform.Apart table)
  (returns : ConsoleReturns σ)
  (quiet : ∀ text, Exec.Keeps (Client.written (σ := σ) text) fun m =>
    ((table.get m).line, m.platform.writes))

include apart spares returns quiet

/-- An act of the editor itself returns; it changes the edited line and writes to the console what
it is said to. -/
theorem runOn_act {a : Act} (h : a.call? = none) (m : Machine σ) :
    ∃ m', Exec.runOn (a.perform table) m = (.ok (), m') ∧
      (table.get m').line = a.line (table.get m).line ∧
      m'.platform.console = m.platform.console ++ a.text := by
  cases a with
  | puts t =>
    obtain ⟨_, m', hwritten⟩ := returns (Text.upToNul t)
      (Machine.thePlatform.set (m.platform.write (Text.upToNul t)) m)
    have hkept := (quiet (Text.upToNul t)).of_runOn hwritten
    obtain ⟨hline, hwrites⟩ := Prod.mk.inj hkept
    refine ⟨m', hwritten, hline.trans (congrArg _ (apart _ m)), ?_⟩
    rw [Platform.console, hwrites]
    exact m.platform.console_write (Text.upToNul t)
  | put c => exact ⟨_, rfl, congrArg _ (apart _ m), m.platform.console_write [c]⟩
  | hold line =>
    refine ⟨_, rfl, congrArg _ (table.get_set _ m), ?_⟩
    have hplatform := spares { table.get m with line } m
    exact (congrArg Platform.console hplatform).trans (List.append_nil _).symm
  | run line => cases h

/-- Acts of the editor itself, one after the other. -/
theorem runOn_acts {acts : List Act} (h : ∀ a ∈ acts, a.call? = none) (m : Machine σ) :
    ∃ m', Exec.runOn (perform table acts) m = (.ok (), m') ∧
      (table.get m').line = acts.foldl Act.line (table.get m).line ∧
      m'.platform.console = m.platform.console ++ acts.flatMap Act.text := by
  induction acts generalizing m with
  | nil => exact ⟨m, rfl, rfl, (List.append_nil _).symm⟩
  | cons a acts ih =>
    obtain ⟨ha, hacts⟩ := List.forall_mem_cons.1 h
    obtain ⟨m₁, hrun, hline, hconsole⟩ := runOn_act apart spares returns quiet ha m
    obtain ⟨m₂, hrest, hthen, hmore⟩ := ih hacts m₁
    refine ⟨m₂, (Exec.runOn_bind_of_ok hrun).trans hrest, ?_, ?_⟩
    · rw [hthen, hline, List.foldl_cons]
    · rw [hmore, hconsole, List.append_assoc, List.flatMap_cons]

/-- A byte does the acts for it. -/
theorem runOn_takeByte (c : UInt8) (m : Machine σ) :
    Exec.runOn (takeByte table c .console) m =
      Exec.runOn (perform table (respond (table.get m).line c)) m := by
  rw [takeByte, if_neg (by decide), Exec.runOn_bind_of_ok (Part.runOn_read table m), respond]
  by_cases hend : isEnd c = true
  · have hmodel : (decide (c = 13) || decide (c = 10)) = true := hend
    rw [if_pos hmodel, if_pos hend, endLine]
    -- the line is read once more after the line feed, which the observers may have seen
    obtain ⟨m₁, hrun, hline, -⟩ := runOn_act apart spares returns quiet (a := .puts "\n") rfl m
    refine (Exec.runOn_bind_of_ok hrun).trans (.trans ?_ (Exec.runOn_bind_of_ok hrun).symm)
    rw [Exec.runOn_bind_of_ok (Part.runOn_read table m₁), hline]
    show Exec.runOn (if List.isEmpty (table.get m).line = true then _ else _) m₁ =
      Exec.runOn (perform table _) m₁
    by_cases hempty : (table.get m).line = []
    · rw [if_pos (List.isEmpty_iff.2 hempty), if_pos hempty, List.nil_append, perform_pair]
      rfl
    · rw [if_neg (mt List.isEmpty_iff.1 hempty), if_neg hempty, List.singleton_append, perform_run,
        perform_pair]
      rfl
  · have hmodel : ¬(decide (c = 13) || decide (c = 10)) = true := hend
    rw [if_neg hmodel, if_neg hend]
    by_cases herase : isErase c = true
    · have hmodel : (decide (c = 8) || decide (c = 127)) = true := herase
      rw [if_pos hmodel, if_pos herase]
      by_cases hempty : (table.get m).line = []
      · rw [if_pos (List.isEmpty_iff.2 hempty), if_pos hempty]
        rfl
      · rw [if_neg (mt List.isEmpty_iff.1 hempty), if_neg hempty, perform_pair]
        rfl
    · have hmodel : ¬(decide (c = 8) || decide (c = 127)) = true := herase
      rw [if_neg hmodel, if_neg herase]
      split
      · rw [perform_pair]
        rfl
      · rfl

/-- A line end whose command returns leaves an empty line and a prompt. -/
theorem runOn_endOfLine {c : UInt8} (hend : isEnd c = true) {m : Machine σ}
    (hreturns : LineReturns table m) :
    ∃ m' output, Exec.runOn (takeByte table c .console) m = (.ok (), m') ∧
      (table.get m').line = [] ∧ m'.platform.console = output ++ "> " := by
  have hquiet : ∀ a ∈ [Act.hold [], Act.puts "> "], a.call? = none := by simp [Act.call?]
  rw [runOn_takeByte apart spares returns quiet, respond, if_pos hend]
  obtain ⟨m₁, hnewline, hline, -⟩ := runOn_act apart spares returns quiet (a := .puts "\n") rfl m
  by_cases hempty : (table.get m).line = []
  · obtain ⟨m₂, hrest, hkept, hconsole⟩ := runOn_acts apart spares returns quiet hquiet m₁
    rw [if_pos hempty, List.nil_append]
    exact ⟨m₂, m₁.platform.console, (Exec.runOn_bind_of_ok hnewline).trans hrest, hkept, hconsole⟩
  · -- the command runs between the line feed and the acts of the editor itself
    have hcalled := hreturns hempty
    have hnewline' : (Exec.runOn (puts .console "\n") m).2 = m₁ := congrArg Prod.snd hnewline
    rw [hnewline'] at hcalled
    cases hrun : Exec.runOn (runLine table (table.get m).line .console) m₁ with
    | mk ended m₂ =>
      cases ended with
      | error e =>
        rw [hrun] at hcalled
        cases hcalled
      | ok status =>
        obtain ⟨m₃, hrest, hkept, hconsole⟩ := runOn_acts apart spares returns quiet hquiet m₂
        refine ⟨m₃, m₂.platform.console, ?_, hkept, hconsole⟩
        rw [if_neg hempty, List.singleton_append]
        refine (Exec.runOn_bind_of_ok hnewline).trans ?_
        show Exec.runOn (perform table (.run _ :: _)) m₁ = _
        rw [perform_run, Exec.runOn_bind_of_ok hrun]
        exact hrest

/-- Any other byte returns, changes the line as it says, and writes its echo. -/
theorem runOn_edit {c : UInt8} (hend : ¬isEnd c = true) (m : Machine σ) :
    ∃ m', Exec.runOn (takeByte table c .console) m = (.ok (), m') ∧
      (table.get m').line = typed (table.get m).line c ∧
      m'.platform.console =
        m.platform.console ++ (respond (table.get m).line c).flatMap Act.text := by
  have hcalls : ∀ a ∈ respond (table.get m).line c, a.call? = none := by
    rw [← List.filterMap_eq_nil_iff, calls_respond, if_neg fun h => hend h.1]
  rw [runOn_takeByte apart spares returns quiet, ← foldl_line_respond hend]
  exact runOn_acts apart spares returns quiet hcalls m

/-- A stream whose commands return does the acts of its course. -/
theorem feed_course {bytes : List UInt8} {m : Machine σ} (h : CommandsReturn table bytes m) :
    ∃ m', Exec.runOn (feed table bytes) m = (.ok (), m') ∧
      Exec.runOn (perform table (course (table.get m).line bytes)) m = (.ok (), m') ∧
      (table.get m').line = bytes.foldl typed (table.get m).line := by
  induction bytes generalizing m with
  | nil => exact ⟨m, rfl, rfl, rfl⟩
  | cons c bytes ih =>
    obtain ⟨hc, hbytes⟩ := h
    -- whether it ends a line or not, the byte returns and leaves the line that it makes
    have hstep : ∃ m₁, Exec.runOn (takeByte table c .console) m = (.ok (), m₁) ∧
        (table.get m₁).line = typed (table.get m).line c := by
      by_cases hend : isEnd c = true
      · obtain ⟨m₁, -, hrun, hline, -⟩ :=
          runOn_endOfLine apart spares returns quiet hend (hc hend)
        exact ⟨m₁, hrun, hline.trans (if_pos hend).symm⟩
      · obtain ⟨m₁, hrun, hline, -⟩ := runOn_edit apart spares returns quiet hend m
        exact ⟨m₁, hrun, hline⟩
    obtain ⟨m₁, hrun, hline⟩ := hstep
    rw [hrun] at hbytes
    obtain ⟨m₂, hrest, hacts, hthen⟩ := ih hbytes
    rw [hline] at hacts hthen
    refine ⟨m₂, (Exec.runOn_bind_of_ok hrun).trans hrest, ?_, hthen⟩
    rw [runOn_takeByte apart spares returns quiet] at hrun
    rw [course, perform_append, Exec.runOn_bind_of_ok hrun]
    exact hacts

/-- A stream without line ends writes its echo. -/
theorem feed_edits {bytes : List UInt8} (hbytes : ∀ c ∈ bytes, ¬isEnd c = true) (m : Machine σ) :
    ∃ m', Exec.runOn (feed table bytes) m = (.ok (), m') ∧
      (table.get m').line = bytes.foldl typed (table.get m).line ∧
      m'.platform.console =
        m.platform.console ++ (course (table.get m).line bytes).flatMap Act.text := by
  induction bytes generalizing m with
  | nil => exact ⟨m, rfl, rfl, (List.append_nil _).symm⟩
  | cons c bytes ih =>
    obtain ⟨hc, hrest⟩ := List.forall_mem_cons.1 hbytes
    obtain ⟨m₁, hrun, hline, hconsole⟩ := runOn_edit apart spares returns quiet hc m
    obtain ⟨m₂, hthen, hlines, hmore⟩ := ih hrest m₁
    rw [hline] at hlines hmore
    refine ⟨m₂, (Exec.runOn_bind_of_ok hrun).trans hthen, hlines, ?_⟩
    rw [hmore, hconsole, course, List.flatMap_append, List.append_assoc]

end

/-- The commands of a stream that return do so up to any byte of it, and from there on. -/
theorem CommandsReturn.of_append [Client σ] {table : Part (Machine σ) CommandTable}
    {bytes more : List UInt8} {m : Machine σ} (h : CommandsReturn table (bytes ++ more) m) :
    CommandsReturn table bytes m ∧
      ∀ m₁, Exec.runOn (feed table bytes) m = (.ok (), m₁) → CommandsReturn table more m₁ := by
  induction bytes generalizing m with
  | nil =>
    refine ⟨trivial, fun m₁ hrun => ?_⟩
    obtain rfl : m = m₁ := congrArg Prod.snd hrun
    exact h
  | cons c bytes ih =>
    obtain ⟨hc, hrest⟩ := h
    obtain ⟨hbytes, hmore⟩ := ih hrest
    refine ⟨⟨hc, hbytes⟩, fun m₁ hrun => ?_⟩
    obtain ⟨_, m₀, hbyte, hthen⟩ := Exec.of_runOn_bind_eq_ok hrun
    rw [hbyte] at hmore
    exact hmore m₁ hthen

end LineEditor

open LineEditor in
/-- **The line editor and its display agree.**  Let the observers of the console return without
touching the edited line or the console, let nothing have been typed yet, and let the commands that
a stream runs return.  Then the editor takes the whole stream, and the line never grows beyond its
capacity.  A line is run for each line end that ends a line with something left of it, with exactly
that line and no other time: the run does the acts of the course, whose calls are the pieces of the
stream between its line ends as they were edited, in their order.  What stands after the last line
end, or the whole stream if there is none, starts from an empty line and, if there is one, from a
prompt.  If it consists of printable bytes and erasures, the row of a terminal that was blank from
the cursor on and replays what was written since then shows the edited line to the left of the
cursor, after what stood there before, and is blank from the cursor on. -/
theorem editor_and_display_agree [Client σ] {table : Part (Machine σ) CommandTable}
    (apart : table.Apart Machine.thePlatform) (spares : Machine.thePlatform.Apart table)
    (returns : ConsoleReturns σ)
    (quiet : ∀ text, Exec.Keeps (Client.written (σ := σ) text) fun m =>
      ((table.get m).line, m.platform.writes))
    {m : Machine σ} (fresh : (table.get m).line = []) {bytes : List UInt8}
    (commands : CommandsReturn table bytes m) :
    ∃ m', Exec.runOn (feed table bytes) m = (.ok (), m') ∧
      (table.get m').line = edited bytes ∧ (table.get m').line.length ≤ lineCapacity ∧
      Exec.runOn (perform table (course [] bytes)) m = (.ok (), m') ∧
      (course [] bytes).filterMap Act.call? =
        ((bytes.splitOnP isEnd).dropLast.map edited).filter (· ≠ []) ∧
      ∀ sofar current, bytes = sofar ++ current → (∀ c ∈ sofar.getLast?, isEnd c = true) →
        ∃ m₁, Exec.runOn (feed table sofar) m = (.ok (), m₁) ∧ (table.get m₁).line = [] ∧
          (sofar ≠ [] → ("> " : Text) <:+ m₁.platform.console) ∧
          ((∀ c ∈ current, Text.isPrintable c = true ∨ isErase c = true) → ∃ shown,
            m'.platform.console = m₁.platform.console ++ shown ∧
            ∀ (other : UInt8 → TerminalRow → TerminalRow) (r : TerminalRow) (before : Text),
              r.Shows before [] → (r.replay other shown).Shows before (table.get m').line) := by
  obtain ⟨m', hrun, hacts, hline⟩ := feed_course apart spares returns quiet commands
  rw [fresh] at hacts hline
  refine ⟨m', hrun, hline, ?_, hacts, ?_, ?_⟩
  · rw [hline]
    exact length_foldl_typed_le (Nat.zero_le _) bytes
  · obtain ⟨piece, pieces, hsplit, hcalls⟩ := calls_course [] bytes
    rw [hcalls, hsplit, List.map_dropLast, List.map_cons]
    rfl
  · rintro sofar current rfl hends
    obtain ⟨hcommands, -⟩ := commands.of_append
    obtain ⟨m₁, hsofar, -, hempty⟩ := feed_course apart spares returns quiet hcommands
    rw [fresh, foldl_typed_of_end hends] at hempty
    rw [feed_append, Exec.runOn_bind_of_ok hsofar] at hrun
    refine ⟨m₁, hsofar, hempty, fun hsome => ?_, fun hedits => ?_⟩
    · -- the last byte so far was a line end, after which there is a prompt
      obtain ⟨front, last, rfl⟩ := (List.eq_nil_or_concat sofar).resolve_left hsome
      rw [List.concat_eq_append] at hcommands hsofar hends
      rw [feed_append] at hsofar
      obtain ⟨_, m₂, hfront, hlast⟩ := Exec.of_runOn_bind_eq_ok hsofar
      have hend : isEnd last = true := hends last (by simp)
      obtain ⟨m₃, output, hrun, -, hconsole⟩ := runOn_endOfLine apart spares returns quiet hend
        ((hcommands.of_append.2 m₂ hfront).1 hend)
      have hlast' := (Exec.runOn_bind_of_ok hrun).symm.trans hlast
      obtain rfl : m₃ = m₁ := congrArg Prod.snd hlast'
      exact ⟨output, hconsole.symm⟩
    · obtain ⟨m₂, hcurrent, hedited, hconsole⟩ := feed_edits apart spares returns quiet
        (fun c hc => not_isEnd (hedits c hc)) m₁
      obtain rfl : m₂ = m' := congrArg Prod.snd (hcurrent.symm.trans hrun)
      rw [hempty] at hedited hconsole
      refine ⟨(course [] current).flatMap Act.text, hconsole, fun other r before hshows => ?_⟩
      rw [hedited]
      exact shows_course hshows hedits

/-- A client whose one command notes its arguments. -/
structure Scribe where
  notes : List Text
deriving Repr, DecidableEq

instance : Client Scribe where
  trapHandler _ := return .pass
  errorHandler _ _ := return .unhandled
  command _ arguments _ := do
    Machine.theClients.update fun s => ⟨s.notes ++ [arguments]⟩
    return 0
  written _ := return

/-- The machine of the scribe, which is known to the console. -/
def Scribe.machine : Machine Scribe where
  console := { CommandTable.initial with
    commands := CommandTable.initial.commands ++ [⟨"note", .client 0, "Notes its arguments"⟩] }
  clients := ⟨[]⟩

/-- A slip is taken back, a line is run, an empty one is not, and what is typed next stands on the
row. -/
theorem scribe_sees_its_line :
    let typed : Text := "nox\x08te a b\r\nab\x7f"
    ∃ m', Exec.runOn (LineEditor.feed Machine.theConsole typed) Scribe.machine = (.ok (), m') ∧
      m'.console.line = "a" ∧ m'.clients = ⟨["a b"]⟩ ∧
      ∃ shown, m'.platform.console = ("nox\x08 \x08te a b\n> \n> " : Text) ++ shown ∧
        ∀ other, ((TerminalRow.mk [32, 62] []).replay other shown).Shows [32, 62] "a" := by
  intro typed
  have hnotes : (Exec.runOn (LineEditor.feed Machine.theConsole typed) Scribe.machine).2.clients =
      ⟨["a b"]⟩ := by decide +kernel
  have hsofar : (Exec.runOn (LineEditor.feed Machine.theConsole ("nox\x08te a b\r\n" : Text))
      Scribe.machine).2.platform.console = "nox\x08 \x08te a b\n> \n> " := by decide +kernel
  have hcommands : LineEditor.CommandsReturn Machine.theConsole typed Scribe.machine := by
    decide +kernel
  obtain ⟨m', hrun, hline, -, -, -, hshown⟩ := editor_and_display_agree (fun _ _ => rfl)
    (fun _ _ => rfl) (fun _ m => ⟨(), m, rfl⟩) (fun _ _ => rfl) rfl hcommands
  have hedited : m'.console.line = "a" := hline.trans (by decide +kernel)
  obtain ⟨m₁, hfirst, -, -, hrow⟩ := hshown "nox\x08te a b\r\n" "ab\x7f" (by decide +kernel)
    (by decide +kernel)
  obtain ⟨shown, hconsole, hreplay⟩ := hrow (by decide +kernel)
  rw [hrun] at hnotes
  rw [hfirst] at hsofar
  refine ⟨m', hrun, hedited, hnotes, shown, by rw [hconsole, ← hsofar], fun other => ?_⟩
  rw [← hedited]
  exact hreplay other _ [32, 62] ⟨rfl, List.forall_mem_nil _⟩

end Supervisor
