import TaskLeasing.Simulation.Machine

namespace TaskLeasing

/-- A scenario: how a system is set up and the steps that are taken with it. -/
structure Scenario where
  /-- A character that is in no text of the scenario. -/
  mark : Char
  settings : Settings
  attached : Bool
  gated : Bool
  origin : Instant
  steps : List Step

/-- What a step gave and what happened in it, in order. -/
structure StepReport where
  result : StepResult
  trace : List TraceEntry

structure ScenarioReport where
  steps : List StepReport
  final : Snapshot

def Simulation.create (scenario : Scenario) : Simulation :=
  let system := System.create (simulatedNames scenario.mark) scenario.origin scenario.settings scenario.gated
  { system := if scenario.attached then (system.step .attach).2 else system
    mark := scenario.mark
    origin := scenario.origin
    timeline := .start
    scripts := []
    fetched := []
    handle := none
    sweepersStarted := 0
    stopping := []
    stopped := []
    trace := [] }

/-- Takes one step and then runs all that is ready. -/
def Simulation.takeStep (sim : Simulation) (step : Step) : StepReport × Simulation :=
  let (result, sim) := Threaded.takeStep { sim with trace := [] } (.step step)
  (⟨result, sim.trace.reverse⟩, sim)

def Simulation.takeSteps : Simulation → List Step → List StepReport → List StepReport × Simulation
  | sim, [], done => (done.reverse, sim)
  | sim, step :: rest, done =>
    let (report, sim) := sim.takeStep step
    sim.takeSteps rest (report :: done)

/-- Runs a scenario, if its settings are valid. -/
def Scenario.run (scenario : Scenario) : Except Fault ScenarioReport :=
  match scenario.settings.validate with
  | .error error => .error (.settings error)
  | .ok _ =>
    let (steps, sim) := (Simulation.create scenario).takeSteps scenario.steps []
    .ok ⟨steps, sim.snapshot⟩

end TaskLeasing
