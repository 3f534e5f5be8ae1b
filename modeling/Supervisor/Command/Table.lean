/-
The commands of an operator console.

A console knows at most 24 commands by their names, and edits one input line of at most 127
bytes.

* `CommandTable.add` — makes a command known; a name is never given twice;
* `CommandTable.find?` — the command with a name;
* `CommandLine.split` — an input line as a command name and its arguments.
-/
import Supervisor.Text.Token

namespace Supervisor

/-- The number of commands that there is room for. -/
def commandCapacity : Nat := 24

def lineCapacity : Nat := 127

/-- What a command does. -/
inductive CommandAction where
  | help
  | handlers
  | errorLog
  | errorClear
  | errorHandlers
  | panicState
  | panicReset
  | nesting
  | trace
  | traceOn
  | traceOff
  | traceClear
  | firmware
  | interruptHart
  | reboot
  | ticks
  | contexts
  /-- A command of a client, by its number. -/
  | client (number : Nat)
deriving Repr, DecidableEq

structure Command where
  name : Text
  action : CommandAction
  help : Text
deriving Repr, DecidableEq

/-- The commands of a console with the line that is being edited. -/
structure CommandTable where
  commands : List Command
  line : Text := []
deriving Repr, DecidableEq

namespace CommandTable

def find? (t : CommandTable) (name : Text) : Option Command := t.commands.find? (·.name == name)

/-- Makes a command known, unless it lacks a name or an action, the name is taken, or there is
no room. -/
def add (t : CommandTable) (name : Option Text) (action : Option CommandAction)
    (help : Option Text) : Bool × CommandTable :=
  match name, action with
  | some name, some action =>
    if name.isEmpty || commandCapacity ≤ t.commands.length || (t.find? name).isSome then (false, t)
    else (true, { t with commands := t.commands ++ [⟨name, action, help.getD []⟩] })
  | _, _ => (false, t)

/-- A registration that is refused changes nothing. -/
theorem add_of_refused {t : CommandTable} {name : Option Text} {action : Option CommandAction}
    {help : Option Text} (h : (t.add name action help).1 = false) :
    (t.add name action help).2 = t := by
  revert h
  unfold add
  split
  · split <;> simp
  · simp

/-- A registration never takes a command away. -/
theorem mem_commands_add {t : CommandTable} {c : Command} (h : c ∈ t.commands)
    (name : Option Text) (action : Option CommandAction) (help : Option Text) :
    c ∈ (t.add name action help).2.commands := by
  unfold add
  split
  · split
    · exact h
    · exact List.mem_append_left _ h
  · exact h

/-- The commands that every console has from the start. -/
def initial : CommandTable where
  commands :=
    [⟨"help", .help, "List commands"⟩,
      ⟨"handlers", .handlers, "Show registered trap handlers"⟩,
      ⟨"errlog", .errorLog, "Show recent errors: errlog [count]"⟩,
      ⟨"errclear", .errorClear, "Clear the error log"⟩,
      ⟨"errhandlers", .errorHandlers, "Show registered error handlers"⟩,
      ⟨"panic", .panicState, "Show panic mode state"⟩,
      ⟨"panic_reset", .panicReset, "Clear panic mode"⟩,
      ⟨"nest", .nesting, "Show trap nesting and interrupt stack usage"⟩,
      ⟨"trace", .trace, "Dump trace buffer"⟩,
      ⟨"trace_on", .traceOn, "Enable tracing"⟩,
      ⟨"trace_off", .traceOff, "Disable tracing"⟩,
      ⟨"trace_clear", .traceClear, "Clear trace buffer"⟩,
      ⟨"sbi", .firmware, "Show firmware information"⟩,
      ⟨"ipi", .interruptHart, "Send a software interrupt: ipi <hart>"⟩,
      ⟨"reboot", .reboot, "Cold reboot through the firmware"⟩]

instance : Inhabited CommandTable := ⟨initial⟩

end CommandTable

/-- An input line as a console takes it apart. -/
structure CommandLine where
  /-- The line, cut to what a console takes. -/
  text : Text
  /-- The name of the command. -/
  name : Text
  /-- What follows the name, up to the first NUL. -/
  arguments : Text
deriving Repr, DecidableEq

/-- Takes an input line apart. -/
def CommandLine.split (line : Text) : CommandLine :=
  let text := line.take lineCapacity
  let (name, rest) := Token.next 32 text
  { text, name, arguments := Text.upToNul rest }

end Supervisor
