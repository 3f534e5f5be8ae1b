/-
Running scenarios.

The steps of a scenario run one after the other on one machine, each with an empty console and no
events; what a step did is its answer.  A step that is stopped does not stop the others.

* `Op.perform` — carries out one operation;
* `runSteps` — carries out the steps of a routine;
* `Scenario.answers` — the answers of a scenario.

Design notes: routines may run routines.  How deep they nest is limited, and a scenario that goes
deeper is stopped.
-/
import Supervisor.Scenario.Services

namespace Supervisor.Scenario

def Op.perform (run : Runner) : Op → Run Report :=
  letI : Client Bench := Bench.client run
  fun
    | text op => op.perform
    | term op => op.perform
    | platform op => op.perform
    | hook pattern body => do
      Machine.theClients.update fun b => { b with hooks := b.hooks.push { pattern, body } }
      return .nothing
    | lock op => op.perform run
    | interrupt own op => op.perform (if own then Machine.theInterrupts else Bench.theInterrupts)
    | nesting choice op => op.perform run choice.part
    | registry op => op.perform
    | trace own op => op.perform (if own then Machine.theTrace else Bench.theTrace)
    | log op => op.perform
    | error own op => op.perform (if own then ErrorSite.system else spareSite)
    | system op => op.perform
    | pool op => op.perform
    | api op => op.perform
    | console spare op => op.perform (if spare then Bench.theConsole else Machine.theConsole)

/-- Carries out the steps of a routine, which may nest `depth` deep; each step that ends is an
event. -/
def runSteps : (depth : Nat) → Runner
  | 0 => fun _ => throw .tooDeep
  | depth + 1 => fun steps =>
    steps.forM fun step => do
      let report ← step.op.perform (runSteps depth)
      Bench.emit (.done step.label report)

/-- How deep routines may nest. -/
def depthLimit : Nat := 10000

/-- The machine that a scenario starts with. -/
def machine (s : Scenario) : World where
  platform :=
    { standard := s.standard
      interfaces := if s.standard then {} else s.interfaces
      idlePeriod := if s.standard then none else some 3 }
  system := { bound := !s.standard, config := s.config }
  clients := { routines := s.routines }

/-- A machine with empty consoles and no events. -/
def cleared (m : World) : World :=
  { m with
    platform := { m.platform with writes := [], standardConsole := [] }
    clients := { m.clients with events := [] } }

/-- Carries out one step; gives its answer and the machine after it. -/
def answer (step : Step) (m : World) : Answer × World :=
  let (outcome, m') := ExceptT.run (step.op.perform (runSteps depthLimit)) (cleared m)
  ({ outcome
     output := m'.platform.console
     standardOutput := m'.platform.standardConsole
     events := m'.clients.events.reverse },
    m')

/-- The answers of steps that start with a machine. -/
def answersFrom (m : World) : List Step → List Answer
  | [] => []
  | step :: steps =>
    let (a, m') := answer step m
    a :: answersFrom m' steps

/-- The answers of a scenario. -/
def answers (s : Scenario) : List Answer := answersFrom s.machine s.steps

end Supervisor.Scenario
