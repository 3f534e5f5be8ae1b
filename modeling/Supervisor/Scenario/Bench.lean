/-
The bench.

The bench is the client that carries out scenarios.  Its state holds the routines, the hooks that
are armed, the frames of the handlers that are running, the events so far, and the spare tables.

* `Bench` — the state;
* `Bench.client` — the bench as a client of the machine, given a way to carry out the steps of a
  routine.

Design notes: a handler works on a copy of its frame that stands on a stack in the bench, so that
operations deep inside a handler can change it.  The copy goes back when the handler ends, also
if it was stopped.
-/
import Supervisor.Scenario.Operation
import Supervisor.Scenario.Report

namespace Supervisor.Scenario

/-- A hook: what it waits for, and whether it still does. -/
structure Hook where
  pattern : Text
  body : RoutineId
  armed : Bool := true

structure Bench where
  routines : Array Routine := #[]
  hooks : Array Hook := #[]
  /-- The frames of the handlers that are running, innermost first. -/
  frames : List Frame := []
  /-- What happened so far, newest first. -/
  events : List Event := []
  registry : Registry := {}
  log : ErrorLog := {}
  trace : Trace := {}
  errors : ErrorTable := {}
  nesting : Nesting := {}
  secondNesting : Nesting := {}
  interrupts : InterruptControl := {}
  lock : Spinlock := {}
  console : CommandTable := default
  pool : Pool := {}
  handles : Array Handle := #[]

abbrev World := Machine Bench

abbrev Run := Exec Bench

/-- A way to carry out the steps of a routine. -/
abbrev Runner := List Step → Run Unit

namespace Bench

/-- A part of the bench, as a part of the machine. -/
def part {α : Type} (p : Part Bench α) : Part World α := Machine.theClients.comp p

def theRegistry : Part World Registry :=
  part { get := (·.registry), set a b := { b with registry := a } }

def theLog : Part World ErrorLog := part { get := (·.log), set a b := { b with log := a } }

def theTrace : Part World Trace := part { get := (·.trace), set a b := { b with trace := a } }

def theErrors : Part World ErrorTable :=
  part { get := (·.errors), set a b := { b with errors := a } }

def theNesting : Part World Nesting :=
  part { get := (·.nesting), set a b := { b with nesting := a } }

def theSecondNesting : Part World Nesting :=
  part { get := (·.secondNesting), set a b := { b with secondNesting := a } }

def theInterrupts : Part World InterruptControl :=
  part { get := (·.interrupts), set a b := { b with interrupts := a } }

def theLock : Part World Spinlock := part { get := (·.lock), set a b := { b with lock := a } }

def theConsole : Part World CommandTable :=
  part { get := (·.console), set a b := { b with console := a } }

def thePool : Part World Pool := part { get := (·.pool), set a b := { b with pool := a } }

def emit (e : Event) : Run Unit :=
  Machine.theClients.update fun b => { b with events := e :: b.events }

def stepsOf (id : RoutineId) : Run (List Step) := do
  let b ← Machine.theClients.read
  return (b.routines[id]?.map Routine.steps).getD []

/-- Changes the frame of the innermost running handler; gives the frame after that. -/
def changeFrame (f : Frame → Frame) : Run (Option Frame) :=
  Machine.theClients.change fun b =>
    match b.frames with
    | [] => (none, b)
    | g :: rest => (some (f g), { b with frames := f g :: rest })

/-- Carries out the steps of a trap handler on its frame. -/
def runHandler (run : Runner) (steps : List Step) : TrapExec Bench Unit := do
  let f ← theFrame
  onMachine (Machine.theClients.update fun b => { b with frames := f :: b.frames })
  let ended ← onMachine (do return (← ExceptT.lift (run steps).run))
  let after ← onMachine (Machine.theClients.change fun b =>
    (b.frames.head?, { b with frames := b.frames.tail }))
  set (after.getD f)
  match ended with
  | .ok () => return
  | .error stop => throw stop

/-- Carries out the steps of a hook one by one; a step that is stopped does not stop the
others, unless it used a missing interface. -/
def runHook (run : Runner) : List Step → Run Unit
  | [] => return
  | step :: steps => do
    match ← ExceptT.lift (run [step]).run with
    | .ok () => pure ()
    | .error .missing => throw .missing
    | .error stop => emit (.stopped step.label stop)
    runHook run steps

/-- Springs every armed hook, from place `i` on, whose pattern occurs in a text.  A hook that is
armed meanwhile has its turn too, up to `fuel` hooks in all. -/
def springHooks (run : Runner) (t : Text) : (fuel i : Nat) → Run Unit
  | 0, _ => return
  | fuel + 1, i => do
    let b ← Machine.theClients.read
    match b.hooks[i]? with
    | none => return
    | some hook =>
      if hook.armed && hook.pattern.occursIn t then
        Machine.theClients.update fun b =>
          { b with hooks := b.hooks.setIfInBounds i { hook with armed := false } }
        emit (.hook hook.pattern)
        runHook run (← stepsOf hook.body)
      springHooks run t fuel (i + 1)

/-- The number of hooks that are looked at for one text. -/
def hookLimit : Nat := 10000

/-- Springs the hooks for a text that was just written.  On the standard platform nobody can see
what is written. -/
def observe (run : Runner) (t : Text) : Run Unit := do
  unless (← getThe World).platform.standard do springHooks run t hookLimit 0

/-- The status with which a command of the bench ends. -/
def commandStatus : Nat → Int
  | 0 => 7
  | 1 => 0
  | _ => -3

/-- The bench as a client of the machine. -/
@[reducible] def client (run : Runner) : Client Bench where
  trapHandler id := do
    let b ← onMachine Machine.theClients.read
    match b.routines[id]? with
    | some (.trap description verdict steps) =>
      let f ← theFrame
      let m ← getThe World
      onMachine (emit (.trapHandler description f.sepc m.level))
      runHandler run steps
      return verdict
    | _ => return .pass
  errorHandler id e := do
    let b ← Machine.theClients.read
    match b.routines[id]? with
    | some (.error description outcome steps) =>
      emit (.errorHandler description e.code.raw)
      run steps
      return outcome
    | _ => return .unhandled
  command number arguments sink := do
    emit (.command number arguments)
    if number = 1 && sink = .console then
      Machine.thePlatform.update (·.write "cmd1 ran\n")
      observe run "cmd1 ran\n"
    return commandStatus number
  written := observe run

end Bench

end Supervisor.Scenario
