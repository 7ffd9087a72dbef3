/-
# Runs of a scenario

The steps of a scenario one after another.  A crash ends a step and not the scenario.  At the end
everything that is still open is released: guards first, then the raw handles that their owners have
not released.
-/
import TokenImage.Scenario.Step

namespace TokenImage

/-! ## 1. Reports -/

/-- An engine's counters: runs, releases, releases of what it does not own, and handles out. -/
structure Counters where
  runs : Nat
  releases : Nat
  unknownReleases : Nat
  outstanding : Nat
  deriving DecidableEq

/-- The counters of an engine. -/
def Engine.counters (e : Engine) : Counters :=
  ⟨e.runs, e.releases, e.unknownReleases, e.outstanding⟩

/-- What is known after a step. -/
structure StepReport where
  result : StepResult
  counters : List Counters
  events : List Event

/-- What is known at the end. -/
structure Report where
  steps : List StepReport
  guardsLeft : Nat
  outstandingAtEnd : List Nat

/-! ## 2. Steps in turn -/

/-- A setting and the steps that clients take in it; one that could not be read is bad input. -/
structure Scenario where
  setting : Setting
  steps : List (Option Step)

namespace Scenario

variable {n : Nat}

/-- The counters of all engines. -/
def allCounters (host : Host n) : List Counters :=
  host.engines.toList.map Engine.counters

/-- A step, with what is known after it. -/
def reportStep (A : Allocators) (setting : Setting) (s : ClientState setting.engines)
    (step : Option Step) : StepReport × ClientState setting.engines :=
  match step with
  | none => (⟨.badInput, allCounters s.host, []⟩, s)
  | some step =>
    let done := (step.perform A setting).run s
    let result := match done.result with
      | .ok result => result
      | .error crash => .crashed crash
    (⟨result, allCounters done.state.host, done.events⟩, done.state)

/-- Steps in turn. -/
def reportSteps (A : Allocators) (setting : Setting) (s : ClientState setting.engines) :
    List (Option Step) → List StepReport × ClientState setting.engines
  | [] => ([], s)
  | step :: steps =>
    let (report, s) := reportStep A setting s step
    let (reports, s) := reportSteps A setting s steps
    (report :: reports, s)

/-! ## 3. The end -/

/-- The host after handles are released, each on its engine. -/
def releaseAll (host : Host n) (handles : List (Fin n × Nat)) : Host n :=
  handles.foldl (fun host h => ((Host.release h.1 h.2).run host).state) host

/-- What is still open: the guards, then the raw handles that their owners have not released. -/
def openHandles (s : ClientState n) : List (Fin n × Nat) :=
  s.guards.map (fun entry => (entry.2.engine, entry.2.handle)) ++
    (s.handles.filter fun entry => entry.2.releasedAt.isNone).map fun entry =>
      (entry.2.engine, entry.2.handle)

/-- **A whole scenario.** -/
def run (A : Allocators) (scenario : Scenario) : Report :=
  let setting := scenario.setting
  let start := ClientState.start setting.engines setting.grammars.length
  let (reports, s) := reportSteps A setting start scenario.steps
  let last := releaseAll s.host (openHandles s)
  { steps := reports, guardsLeft := s.guards.length,
    outstandingAtEnd := last.engines.toList.map Engine.outstanding }

end Scenario

end TokenImage
