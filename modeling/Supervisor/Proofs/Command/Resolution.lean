/-
Commands, and the lines that name them.

A console starts with its own commands and learns others by registrations.  What a registration
comes to is told by `Admits`, and what a line asks for by `Asks`, both without regard to how the
table is searched and how a line is taken apart.

* `CommandTable.Sound` — the names of the commands are not empty and pairwise different, and there
  are not too many;
* `add_cases` — a registration is admitted and adds its command at the end, or changes nothing;
* `Sound.run`, `mem_run` — what any registrations leave of a table;
* `asks_iff` — taking a line apart finds the one thing that it asks for;
* `runLine_of_asks` — what a line does;
* `lines_run_registered_commands` — all of it, after any registrations.
-/
import Supervisor.Command.Console
import Mathlib.Data.List.Induction
import Mathlib.Data.List.Nodup
import Mathlib.Data.List.TakeWhile
import Mathlib.Logic.ExistsUnique

namespace Supervisor

/-- What is given to a console that is to learn a command; each part may be missing. -/
structure Registration where
  name : Option Text
  action : Option CommandAction
  help : Option Text
deriving Repr, DecidableEq

namespace CommandTable

/-! ### Registrations -/

/-- The table after a registration. -/
def after (t : CommandTable) (r : Registration) : CommandTable := (t.add r.name r.action r.help).2

/-- A registration brings the command `c`, and the table has room for it and for its name. -/
structure Admits (t : CommandTable) (r : Registration) (c : Command) : Prop where
  name : r.name = some c.name
  action : r.action = some c.action
  help : r.help.getD [] = c.help
  named : c.name ≠ []
  room : t.commands.length < commandCapacity
  free : ∀ d ∈ t.commands, d.name ≠ c.name

structure Sound (t : CommandTable) : Prop where
  room : t.commands.length ≤ commandCapacity
  named : ∀ c ∈ t.commands, c.name ≠ []
  distinct : (t.commands.map (·.name)).Nodup

variable {t : CommandTable}

theorem find?_isSome_iff (name : Text) :
    (t.find? name).isSome = true ↔ ∃ c ∈ t.commands, c.name = name := by
  rw [find?, List.find?_isSome]
  simp only [beq_iff_eq]

theorem find?_eq_none_iff (name : Text) :
    t.find? name = none ↔ ∀ c ∈ t.commands, c.name ≠ name := by
  rw [find?, List.find?_eq_none]
  simp only [beq_iff_eq, ne_eq]

/-- In a table with different names each command is found. -/
theorem Sound.find?_of_mem (h : t.Sound) {c : Command} (hc : c ∈ t.commands) :
    t.find? c.name = some c := by
  obtain ⟨d, hd⟩ := Option.isSome_iff_exists.1 ((find?_isSome_iff c.name).2 ⟨c, hc, rfl⟩)
  have hname : d.name = c.name := by simpa using List.find?_some hd
  have hsame : d = c := List.inj_on_of_nodup_map h.distinct (List.mem_of_find?_eq_some hd) hc hname
  rw [hd, hsame]

/-- A registration that is admitted adds its command at the end; any other changes nothing. -/
theorem add_cases (t : CommandTable) (r : Registration) :
    (∃ c, t.Admits r c ∧
      t.add r.name r.action r.help = (true, { t with commands := t.commands ++ [c] })) ∨
    ((¬∃ c, t.Admits r c) ∧ t.add r.name r.action r.help = (false, t)) := by
  obtain ⟨name, action, help⟩ := r
  match name, action with
  | none, _ =>
    exact .inr ⟨fun ⟨c, hc⟩ => absurd hc.name (Option.some_ne_none c.name).symm, rfl⟩
  | some name, none =>
    exact .inr ⟨fun ⟨c, hc⟩ => absurd hc.action (Option.some_ne_none c.action).symm, rfl⟩
  | some name, some action =>
    rw [add]
    by_cases hbad : name.isEmpty || commandCapacity ≤ t.commands.length || (t.find? name).isSome
    · rw [if_pos hbad]
      refine .inr ⟨fun ⟨c, hc⟩ => ?_, rfl⟩
      obtain rfl : name = c.name := Option.some_inj.1 hc.name
      rw [Bool.or_eq_true, Bool.or_eq_true, List.isEmpty_iff, decide_eq_true_iff,
        find?_isSome_iff] at hbad
      rcases hbad with (hempty | hfull) | ⟨d, hd, htaken⟩
      · exact hc.named hempty
      · exact Nat.not_le.2 hc.room hfull
      · exact hc.free d hd htaken
    · rw [if_neg hbad]
      rw [Bool.or_eq_true, Bool.or_eq_true, List.isEmpty_iff, decide_eq_true_iff,
        find?_isSome_iff, not_or, not_or] at hbad
      obtain ⟨⟨hnamed, hroom⟩, hfree⟩ := hbad
      exact .inl ⟨⟨name, action, help.getD []⟩,
        ⟨rfl, rfl, rfl, hnamed, Nat.not_le.1 hroom, fun d hd heq => hfree ⟨d, hd, heq⟩⟩, rfl⟩

theorem Sound.after (h : t.Sound) (r : Registration) : (t.after r).Sound := by
  obtain ⟨c, hc, hadd⟩ | ⟨-, hadd⟩ := add_cases t r
  · rw [CommandTable.after, hadd]
    refine ⟨?_, ?_, ?_⟩
    · rw [List.length_append, List.length_singleton]
      exact hc.room
    · intro d hd
      rcases List.mem_append.1 hd with hd | hd
      · exact h.named d hd
      · exact List.mem_singleton.1 hd ▸ hc.named
    · rw [List.map_append, List.map_singleton, List.nodup_append]
      refine ⟨h.distinct, List.nodup_singleton _, ?_⟩
      intro n hn n' hn' heq
      obtain ⟨d, hd, rfl⟩ := List.mem_map.1 hn
      exact hc.free d hd (heq.trans (List.mem_singleton.1 hn'))
  · rw [CommandTable.after, hadd]
    exact h

theorem Sound.run (h : t.Sound) (rs : List Registration) :
    (rs.foldl CommandTable.after t).Sound := by
  induction rs generalizing t with
  | nil => exact h
  | cons r rs ih => exact ih (h.after r)

/-- No registration takes a command away. -/
theorem mem_run {c : Command} (h : c ∈ t.commands) (rs : List Registration) :
    c ∈ (rs.foldl CommandTable.after t).commands := by
  induction rs generalizing t with
  | nil => exact h
  | cons r rs ih => exact ih (mem_commands_add h r.name r.action r.help)

/-- A console starts with a sound table, whatever has been typed. -/
theorem sound_initial (typed : Text) : ({ initial with line := typed } : CommandTable).Sound where
  room := by
    show initial.commands.length ≤ commandCapacity
    decide
  named := by
    show ∀ c ∈ initial.commands, c.name ≠ []
    decide +kernel
  distinct := by
    show (initial.commands.map (·.name)).Nodup
    decide +kernel

end CommandTable

/-! ### Lines -/

/-- A name begins and ends with bytes that are no whitespace. -/
def IsTrimmed (name : Text) : Prop :=
  (∃ c t, name = c :: t ∧ Text.isSpace c = false) ∧ ∃ c t, name = t ++ [c] ∧ Text.isSpace c = false

/-- A line asks for the command `name` with what is left of the line: whitespace, the name, more
whitespace and, unless the line ends there, the first space behind the name and the rest.  A line of
nothing but whitespace asks for the empty name. -/
inductive Asks : Text → Text → Text → Prop
  | blank {line} : Text.Blank line → Asks line [] []
  | bare {before name after} : Text.Blank before → IsTrimmed name →
    Text.Blank after → 32 ∉ name ++ after →
    Asks (before ++ (name ++ after)) name []
  | spaced {before name after rest} : Text.Blank before → IsTrimmed name →
    Text.Blank after → 32 ∉ name ++ after →
    Asks (before ++ (name ++ after ++ 32 :: rest)) name rest

theorem trimEnd_append {name after : Text} (hname : IsTrimmed name)
    (hafter : Text.Blank after) : Text.trimEnd (name ++ after) = name := by
  obtain ⟨-, c, t, rfl, hc⟩ := hname
  have hreverse : Text.Blank after.reverse := fun c hc =>
    hafter c (List.mem_reverse.1 hc)
  have hlast : ¬Text.isSpace c = true := by rw [hc]; exact Bool.false_ne_true
  rw [Text.trimEnd, List.reverse_append, List.dropWhile_append_of_pos hreverse,
    List.reverse_append, List.reverse_singleton, List.singleton_append,
    List.dropWhile_cons_of_neg hlast, List.reverse_cons, List.reverse_reverse]

/-- Without whitespace in front, the token is what stands before the first space. -/
theorem Token.next_eq {before name after rest : Text} (hbefore : Text.Blank before)
    (hname : IsTrimmed name) (hafter : Text.Blank after)
    (hspace : 32 ∉ name ++ after) (hrest : rest.head? ∈ [none, some 32]) :
    Token.next 32 (before ++ (name ++ after ++ rest)) = (name, rest.drop 1) := by
  have hdrop : (before ++ (name ++ after ++ rest)).dropWhile Text.isSpace =
      name ++ after ++ rest := by
    obtain ⟨⟨c, t, rfl, hc⟩, -⟩ := hname
    rw [List.dropWhile_append_of_pos hbefore]
    exact List.dropWhile_cons_of_neg (by rw [hc]; exact Bool.false_ne_true)
  have hnone : ∀ c ∈ name ++ after, (c != 32) = true := fun c hc =>
    bne_iff_ne.2 fun heq => hspace (heq ▸ hc)
  have htake : (name ++ after ++ rest).takeWhile (· != 32) = name ++ after := by
    rw [List.takeWhile_append_of_pos hnone]
    cases rest with
    | nil => exact List.append_nil _
    | cons c rest =>
      obtain rfl : c = 32 := by simpa using hrest
      exact List.append_nil _
  rw [Token.next]
  simp only [hdrop, htake]
  rw [trimEnd_append hname hafter, List.drop_left]

theorem Asks.next_eq {line name rest : Text} (h : Asks line name rest) :
    Token.next 32 line = (name, rest) := by
  cases h with
  | blank hblank =>
    have hdrop : line.dropWhile Text.isSpace = [] := List.dropWhile_eq_nil_iff.2 hblank
    rw [Token.next]
    simp only [hdrop]
    rfl
  | @bare before name after hbefore hname hafter hspace =>
    have hnext : Token.next 32 (before ++ (name ++ after ++ [])) = (name, [].drop 1) :=
      Token.next_eq hbefore hname hafter hspace (by simp)
    rwa [List.append_nil] at hnext
  | spaced hbefore hname hafter hspace =>
    exact Token.next_eq hbefore hname hafter hspace (by simp)

/-- A text that does not begin with whitespace is a name with whitespace behind it. -/
theorem exists_trimmed {c : UInt8} (t : Text) (hc : Text.isSpace c = false) :
    ∃ name after, c :: t = name ++ after ∧ IsTrimmed name ∧ Text.Blank after := by
  induction t using List.reverseRecOn with
  | nil => exact ⟨[c], [], rfl, ⟨⟨c, [], rfl, hc⟩, c, [], rfl, hc⟩, List.forall_mem_nil _⟩
  | append_singleton t d ih =>
    by_cases hd : Text.isSpace d = true
    · obtain ⟨name, after, hsplit, hname, hafter⟩ := ih
      refine ⟨name, after ++ [d], ?_, hname, ?_⟩
      · rw [← List.append_assoc, ← hsplit, List.cons_append]
      · intro e he
        rcases List.mem_append.1 he with he | he
        · exact hafter e he
        · exact List.mem_singleton.1 he ▸ hd
    · have hlast : Text.isSpace d = false := Bool.eq_false_iff.2 hd
      exact ⟨c :: (t ++ [d]), [], (List.append_nil _).symm,
        ⟨⟨c, t ++ [d], rfl, hc⟩, d, c :: t, rfl, hlast⟩, List.forall_mem_nil _⟩

/-- Each line asks for something. -/
theorem exists_asks (line : Text) : ∃ name rest, Asks line name rest := by
  have hbefore : Text.Blank (line.takeWhile Text.isSpace) := fun c hc => List.mem_takeWhile_imp hc
  have hline : line = line.takeWhile Text.isSpace ++ line.dropWhile Text.isSpace :=
    List.takeWhile_append_dropWhile.symm
  cases hbody : line.dropWhile Text.isSpace with
  | nil => exact ⟨_, _, .blank (List.dropWhile_eq_nil_iff.1 hbody)⟩
  | cons c t =>
    have hc : Text.isSpace c = false := by
      have hhead := List.head_dropWhile_not Text.isSpace (l := line)
        (by rw [hbody]; exact List.cons_ne_nil _ _)
      simpa only [hbody, List.head_cons] using hhead
    -- the first byte is no space, and so it belongs to what stands before the first space
    have hcut : (c :: t).takeWhile (· != 32) = c :: t.takeWhile (· != 32) :=
      List.takeWhile_cons_of_pos (bne_iff_ne.2 fun heq => by
        rw [heq] at hc
        exact absurd hc (by decide))
    obtain ⟨name, after, hsplit, hname, hafter⟩ := exists_trimmed (t.takeWhile (· != 32)) hc
    have hspace : 32 ∉ name ++ after := by
      rw [← hsplit, ← hcut]
      intro hmem
      exact absurd (List.mem_takeWhile_imp hmem) (by decide)
    have hparts : c :: t = name ++ after ++ (c :: t).dropWhile (· != 32) := by
      rw [← hsplit, ← hcut, List.takeWhile_append_dropWhile]
    rw [hline, hbody, hparts]
    cases hrest : (c :: t).dropWhile (· != 32) with
    | nil =>
      rw [List.append_nil]
      exact ⟨name, [], .bare hbefore hname hafter hspace⟩
    | cons d rest =>
      obtain rfl : d = 32 := by
        have hhead := List.head_dropWhile_not (· != 32) (l := c :: t)
          (by rw [hrest]; exact List.cons_ne_nil _ _)
        simpa only [hrest, List.head_cons, bne_eq_false_iff_eq] using hhead
      exact ⟨name, rest, .spaced hbefore hname hafter hspace⟩

/-- Taking a line apart finds the one thing that it asks for. -/
theorem asks_iff (line name rest : Text) :
    Asks line name rest ↔ Token.next 32 line = (name, rest) := by
  refine ⟨Asks.next_eq, fun h => ?_⟩
  obtain ⟨name', rest', hasks⟩ := exists_asks line
  obtain ⟨rfl, rfl⟩ := Prod.mk.inj (h.symm.trans hasks.next_eq)
  exact hasks

/-! ### Lines on a console -/

variable {σ : Type} [Client σ]

/-- Says that there is no such command. -/
def answerUnknown (line : Text) : Exec σ Int := do
  putLine .console ["Unknown command: ", Text.upToNul line, "\n"]
  return -1

theorem runLine_of_asks {table : Part (Machine σ) CommandTable} {line name rest : Text}
    (h : Asks (line.take lineCapacity) name rest) (m : Machine σ) :
    Exec.runOn (CommandTable.runLine table line .console) m =
      if name = [] then (.ok (-1), m)
      else
        match (table.get m).find? name with
        | none => Exec.runOn (answerUnknown (line.take lineCapacity)) m
        | some c => Exec.runOn (c.action.run (Text.upToNul rest) .console) m := by
  have hsplit : CommandLine.split line =
      ⟨line.take lineCapacity, name, Text.upToNul rest⟩ := by
    rw [CommandLine.split]
    simp only [h.next_eq]
  rw [CommandTable.runLine, if_neg (by decide)]
  simp only [hsplit]
  by_cases hname : name = []
  · rw [if_pos hname, hname]
    rfl
  · have hempty : ¬name.isEmpty = true := by rwa [List.isEmpty_iff]
    rw [if_neg hname]
    simp only [if_neg hempty]
    rw [Exec.runOn_bind_of_ok (Part.runOn_read table m)]
    cases (table.get m).find? name with
    | none => rfl
    | some c => rfl

/-- **A line runs the command that it names.**  After any registrations the table is sound, and each
further registration adds a command at the end or changes nothing; a command is found under its name
from then on.  Of a line only the first 127 bytes count, and they ask for one thing.  If a command
has that name, then the line does what this command does with the rest up to its first NUL, and
gives its status.  If none has, the answer is -1, with a message unless the name is empty. -/
theorem lines_run_registered_commands (typed : Text) (rs : List Registration)
    (table : Part (Machine σ) CommandTable) (m : Machine σ) (line : Text) :
    let t := rs.foldl CommandTable.after { CommandTable.initial with line := typed }
    t.Sound ∧
    (∀ r : Registration,
      (∃ c, t.Admits r c ∧
        t.add r.name r.action r.help = (true, { t with commands := t.commands ++ [c] })) ∨
      ((¬∃ c, t.Admits r c) ∧ t.add r.name r.action r.help = (false, t))) ∧
    (∀ c ∈ t.commands, ∀ later : List Registration,
      (later.foldl CommandTable.after t).find? c.name = some c) ∧
    (∃! p : Text × Text, Asks (line.take lineCapacity) p.1 p.2) ∧
    (∀ name rest, Asks (line.take lineCapacity) name rest →
      let run := Exec.runOn (CommandTable.runLine table line .console) (table.set t m)
      (∀ c ∈ t.commands, c.name = name →
        run = Exec.runOn (c.action.run (Text.upToNul rest) .console) (table.set t m)) ∧
      ((∀ c ∈ t.commands, c.name ≠ name) →
        run = if name = [] then (.ok (-1), table.set t m)
          else Exec.runOn (answerUnknown (line.take lineCapacity)) (table.set t m))) := by
  intro t
  have hsound : t.Sound := (CommandTable.sound_initial typed).run rs
  refine ⟨hsound, CommandTable.add_cases t,
    fun c hc later => (hsound.run later).find?_of_mem (CommandTable.mem_run hc later), ?_, ?_⟩
  · obtain ⟨name, rest, hasks⟩ := exists_asks (line.take lineCapacity)
    refine ⟨(name, rest), hasks, fun p hp => ?_⟩
    exact ((asks_iff _ _ _).1 hp).symm.trans hasks.next_eq
  · intro name rest hasks run
    have hrun : run = _ := runLine_of_asks hasks (table.set t m)
    rw [table.get_set] at hrun
    refine ⟨?_, fun hother => ?_⟩
    · rintro c hc rfl
      rw [hrun, if_neg (hsound.named c hc), hsound.find?_of_mem hc]
    · rw [hrun, (CommandTable.find?_eq_none_iff name).2 hother]

end Supervisor
