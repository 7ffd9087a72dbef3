/-
# The surface of a scenario

Clients see no addresses.  What they do see can be worked out without a heap: of an engine its
counters, of a guard the view of its reply, of a raw handle whether there is a result and whether its
owner has released it.  A `Surface` is a state of that kind, and `Surface.perform` is what steps do to
it.  Nothing of a reply comes into it but `Answer.ends`, and nothing but the node of that into a parse.

`Scenario.surface` is the report of a scenario worked out so.
-/
import TokenImage.Proofs.Engine.Likeness
import TokenImage.Proofs.Scenario.Isolation

namespace TokenImage

/-! ## 1. Counters -/

namespace Counters

/-- The counters after a run that ended in a reply, with a result or without one. -/
def ran (c : Counters) (hasResult : Bool) : Counters :=
  { c with runs := c.runs + 1, outstanding := c.outstanding + if hasResult then 1 else 0 }

/-- The counters after a release by the owner. -/
def returned (c : Counters) (hasResult : Bool) : Counters :=
  { c with releases := c.releases + 1, outstanding := c.outstanding - if hasResult then 1 else 0 }

/-- The counters after a release of what is not out there. -/
def offered (c : Counters) : Counters :=
  { c with releases := c.releases + 1, unknownReleases := c.unknownReleases + 1 }

/-- The counters after a parse. -/
def parsed (c : Counters) : Counters :=
  { c with runs := c.runs + 1, releases := c.releases + 1 }

end Counters

/-! ## 2. Surfaces -/

/-- What shows of a guard. -/
structure GuardSight (n : Nat) where
  engine : Fin n
  view : GuardView

/-- What shows of a raw handle. -/
structure HandleSight (n : Nat) where
  engine : Fin n
  hasResult : Bool
  releasedAt : Option Nat

/-- **What shows of a state**: the counters of the engines, how often each grammar was asked, and all
that clients keep, the latest first. -/
structure Surface (n : Nat) where
  counters : List Counters
  calls : List Nat
  guards : List (String × GuardSight n) := []
  handles : List (String × HandleSight n) := []

namespace Surface

variable {n : Nat} {α : Type}

/-- The surface before the first step. -/
def start (n grammars : Nat) : Surface n :=
  { counters := List.replicate n ⟨0, 0, 0, 0⟩, calls := List.replicate grammars 0 }

/-- The surface with one more call of a grammar. -/
def countCall (k : Nat) (v : Surface n) : Surface n :=
  { v with calls := v.calls.modify k (· + 1) }

/-- The surface with the counters of one engine changed. -/
def count (i : Fin n) (f : Counters → Counters) (v : Surface n) : Surface n :=
  { v with counters := v.counters.modify i f }

/-- The runs of all engines together. -/
def totalRuns (v : Surface n) : Nat :=
  (v.counters.map Counters.runs).sum

/-- What the next call of a grammar comes to. -/
def ends (v : Surface n) (k : Nat) (g : Grammar) (input : List UInt8) : Except Crash Reply :=
  (g (v.calls.getD k 0) input).ends

/-- The surface with a new guard. -/
def keepGuard (name : String) (g : GuardSight n) (v : Surface n) : Surface n :=
  { v with guards := (name, g) :: v.guards }

/-- The surface without a guard. -/
def forgetGuard (name : String) (v : Surface n) : Surface n :=
  { v with guards := v.guards.filter fun entry => entry.1 ≠ name }

/-- The surface with a new raw handle, or with another entry for one. -/
def keepHandle (name : String) (h : HandleSight n) (v : Surface n) : Surface n :=
  { v with handles := (name, h) :: v.handles.filter fun entry => entry.1 ≠ name }

/-! ## 3. Runs and parses -/

/-- A run whose reply is kept. -/
def run (i : Fin n) (k : Nat) (g : Grammar) (input : List UInt8) : Action (Surface n) Reply :=
  ⟨fun v =>
    match v.ends k g input with
    | .error c => ⟨.error c, (v.countCall k).count i (·.ran false), []⟩
    | .ok reply => ⟨.ok reply, (v.countCall k).count i (·.ran reply.hasResult), []⟩⟩

/-- A run whose reply is looked at and released: all that comes of it comes of its node. -/
def glance (i : Fin n) (k : Nat) (g : Grammar) (input : List UInt8)
    (f : Node → List Event × Except Crash α) : Action (Surface n) α :=
  ⟨fun v =>
    match (v.ends k g input).map Reply.node with
    | .error c => ⟨.error c, (v.countCall k).count i (·.ran false), []⟩
    | .ok node => ⟨(f node).2, (v.countCall k).count i Counters.parsed, (f node).1⟩⟩

end Surface

/-- What a session makes of a node, with the events on the way. -/
def Session.outcomeOf {n : Nat} (s : Session n) (node : Node) : List Event × Except Error Token :=
  if node.isNull then ([], .error noMatchError)
  else ((s.decoder.readNode node).events, (s.decoder.readNode node).result)

namespace Surface

variable {n : Nat}

/-- A parse of a session. -/
def parse (s : Session n) (k : Nat) (g : Grammar) (input : List UInt8) :
    Action (Surface n) (Except Error Token) :=
  glance s.engine k g input fun node =>
    ((s.outcomeOf node).1 ++ [Session.closingEvent input.length (s.outcomeOf node).2],
      .ok (s.outcomeOf node).2)

/-- Parses of several inputs in turn, without their events: how many of them matched. -/
def countMatches (session : Session n) (k : Nat) (g : Grammar) :
    List (List UInt8) → Action (Surface n) Nat
  | [] => pure 0
  | input :: inputs => do
    let outcome ← (parse session k g input).silently
    let others ← countMatches session k g inputs
    pure (if outcome.toOption.isSome then others + 1 else others)

/-- The parses of several workers, without their events: how many of them matched. -/
def countCrewMatches (session : Session n) (k : Nat) (g : Grammar) :
    List (List (List UInt8)) → Action (Surface n) Nat
  | [] => pure 0
  | inputs :: crew => do
    let own ← (countMatches session k g inputs).attempt
    let others ← (countCrewMatches session k g crew).attempt
    match own, others with
    | .ok ownCount, .ok otherCount => pure (ownCount + otherCount)
    | _, _ => .crash .workerLost

/-! ## 4. Guards and raw handles -/

/-- A new guard under a name. -/
def acquire (name : String) (i : Fin n) (k : Nat) (g : Grammar) (input : List UInt8) :
    Action (Surface n) StepResult := do
  let reply ← run i k g input
  .change (keepGuard name ⟨i, reply.view input.length⟩)
  pure (.acquired (reply.view input.length).facts)

/-- A look at a guard. -/
def inspect (g : GuardSight n) (limit : Option UInt64) : Action (Surface n) StepResult :=
  .look fun _ => ((g.view.reading limit).1, .inspected g.view.facts (g.view.reading limit).2)

/-- The end of a guard. -/
def drop (name : String) (g : GuardSight n) : Action (Surface n) StepResult := do
  .change (count g.engine (·.returned !g.view.facts.isNull))
  .change (forgetGuard name)
  pure .done

/-- A run without a guard. -/
def runRaw (name : String) (i : Fin n) (k : Nat) (g : Grammar) (input : List UInt8) :
    Action (Surface n) StepResult := do
  let reply ← run i k g input
  .change (keepHandle name ⟨i, reply.hasResult, none⟩)
  if reply.hasResult then
    .look fun _ => ((reply.handleView input.length).1, .handed (reply.handleView input.length).2)
  else pure .handedNull

/-- Whether a raw handle may stand for another result by now. -/
def isStale (h : HandleSight n) (v : Surface n) : Bool :=
  match h.releasedAt with
  | none => false
  | some runs => h.hasResult && runs ≠ v.totalRuns

/-- What an engine makes of a raw handle that is not stale: its owner takes it back once. -/
def offer (h : HandleSight n) (i : Fin n) : Action (Surface n) Unit :=
  if !h.hasResult || (i = h.engine ∧ h.releasedAt = none) then
    .change (count i (·.returned h.hasResult))
  else do
    .change (count i Counters.offered)
    .emit .unownedRelease

/-- The surface in which a release on its owner is noted with a raw handle. -/
def noteRelease (name : String) (h : HandleSight n) (v : Surface n) : Surface n :=
  v.keepHandle name { h with releasedAt := some v.totalRuns }

/-- A release of a raw handle that is not stale, on any engine. -/
def releaseRaw (name : String) (h : HandleSight n) (i : Fin n) : Action (Surface n) StepResult := do
  let v ← .current
  if isStale h v then pure .badInput
  else
    offer h i
    .change (if i = h.engine then noteRelease name h else id)
    pure .done

/-! ## 5. All steps -/

/-- An action on something that a step names, if it is there. -/
def onSome {α : Type} (o : Option α) (f : α → Action (Surface n) StepResult) :
    Action (Surface n) StepResult :=
  match o with
  | some a => f a
  | none => pure .badInput

/-- An action on what is kept under a name, if there is such a thing. -/
def withNamed {α : Type} (entries : Surface n → List (String × α)) (name : String)
    (f : α → Action (Surface n) StepResult) : Action (Surface n) StepResult := do
  let v ← .current
  onSome ((entries v).lookup name) f

/-- An action that takes a name for itself, if the name is free. -/
def withFreeName {α : Type} (entries : Surface n → List (String × α)) (name : String)
    (f : Action (Surface n) StepResult) : Action (Surface n) StepResult := do
  let v ← .current
  match (entries v).lookup name with
  | some _ => pure .badInput
  | none => f

/-- The engine with this number, if there is one. -/
def engineAt? (n engine : Nat) : Option (Fin n) :=
  if h : engine < n then some ⟨engine, h⟩ else none

/-- **What a step does to the surface.** -/
def perform (grammars : List Grammar) (sessions : List (Session n)) :
    Step → Action (Surface n) StepResult
  | .parse engine grammar input =>
    onSome (engineAt? n engine) fun i => onSome grammars[grammar]? fun g => do
      let outcome ← parse (.new i) grammar g input
      pure (.parsed outcome.toOption)
  | .sessionParse session grammar input =>
    onSome sessions[session]? fun s => onSome grammars[grammar]? fun g => do
      let outcome ← parse s grammar g input
      pure (.sessionParsed outcome)
  | .sessionOptions session =>
    onSome sessions[session]? fun s => pure (.options s.options)
  | .acquire name engine grammar input =>
    withFreeName Surface.guards name <|
      onSome (engineAt? n engine) fun i => onSome grammars[grammar]? fun g =>
        acquire name i grammar g input
  | .inspect name limit => withNamed Surface.guards name fun guard => inspect guard limit
  | .drop name => withNamed Surface.guards name fun guard => drop name guard
  | .acquirePanic engine grammar input =>
    onSome (engineAt? n engine) fun i => onSome grammars[grammar]? fun g =>
      glance i grammar g input fun node =>
        ([], .error (.panic (Step.abortText !node.isNull)))
  | .run name engine grammar input =>
    withFreeName Surface.handles name <|
      onSome (engineAt? n engine) fun i => onSome grammars[grammar]? fun g =>
        runRaw name i grammar g input
  | .release name engine =>
    withNamed Surface.handles name fun raw => onSome (engineAt? n engine) fun i =>
      releaseRaw name raw i
  | .releaseNull engine =>
    onSome (engineAt? n engine) fun i => do
      .change (count i (·.returned false))
      pure .done
  | .grammarText grammar =>
    onSome grammars[grammar]? fun _ => pure (.text Grammar.structureText)
  | .workers engine grammar crew rounds =>
    onSome (engineAt? n engine) fun i => onSome grammars[grammar]? fun g => do
      let count ← countCrewMatches (.new i) grammar g (Step.crewInputs crew rounds)
      pure (.matched count)

/-! ## 6. Steps in turn -/

/-- A step, with what is known after it. -/
def reportStep (grammars : List Grammar) (sessions : List (Session n)) (v : Surface n)
    (step : Option Step) : StepReport × Surface n :=
  match step with
  | none => (⟨.badInput, v.counters, []⟩, v)
  | some step =>
    let done := (perform grammars sessions step).run v
    let result := match done.result with
      | .ok result => result
      | .error crash => .crashed crash
    (⟨result, done.state.counters, done.events⟩, done.state)

/-- Steps in turn. -/
def reportSteps (grammars : List Grammar) (sessions : List (Session n)) (v : Surface n) :
    List (Option Step) → List StepReport × Surface n
  | [] => ([], v)
  | step :: steps =>
    let (report, v) := reportStep grammars sessions v step
    let (reports, v) := reportSteps grammars sessions v steps
    (report :: reports, v)

end Surface

/-- **The report of a scenario as it shows on the surface**; at the end everything is released. -/
def Scenario.surface (scenario : Scenario) : Report :=
  let setting := scenario.setting
  let start := Surface.start setting.engines setting.grammars.length
  let (reports, v) := Surface.reportSteps setting.grammars setting.sessions start scenario.steps
  { steps := reports, guardsLeft := v.guards.length,
    outstandingAtEnd := List.replicate setting.engines 0 }

end TokenImage
