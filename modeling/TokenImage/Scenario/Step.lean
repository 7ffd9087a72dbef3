/-
# Steps of a scenario

A scenario is a history of clients that share a number of engines.  Clients keep guards and raw
handles by name; sessions and grammars go by number.  A step that names something that is not there
is bad input and does nothing.

A raw handle that its owner has already released may have been handed out again by any later run, so
from then on its name stands for nothing any more.
-/
import TokenImage.Scenario.Grammar
import TokenImage.Session

namespace TokenImage

/-! ## 1. What clients do -/

/-- A step of a client. -/
inductive Step where
  /-- A parse without a session. -/
  | parse (engine grammar : Nat) (input : List UInt8)
  /-- A parse of a session. -/
  | sessionParse (session grammar : Nat) (input : List UInt8)
  /-- A look at a session's options. -/
  | sessionOptions (session : Nat)
  /-- A new guard under a name. -/
  | acquire (name : String) (engine grammar : Nat) (input : List UInt8)
  /-- A look at a guard and a reading of its tree. -/
  | inspect (name : String) (limit : Option UInt64)
  /-- The end of a guard. -/
  | drop (name : String)
  /-- A guard that is lost to a panic. -/
  | acquirePanic (engine grammar : Nat) (input : List UInt8)
  /-- A run without a guard; the raw handle goes under a name. -/
  | run (name : String) (engine grammar : Nat) (input : List UInt8)
  /-- A release of a raw handle, on any engine. -/
  | release (name : String) (engine : Nat)
  /-- A release of the null handle. -/
  | releaseNull (engine : Nat)
  /-- A look at a grammar. -/
  | grammarText (grammar : Nat)
  /-- Parses of several workers, each of so many rounds. -/
  | workers (engine grammar crew rounds : Nat)

/-- What a guard shows of its result. -/
structure GuardFacts where
  isNull : Bool
  hasRoot : Bool
  bitLength : Option Int64

/-- What a raw handle shows of its result. -/
structure HandleFacts where
  tree : Option Memory.Reading
  bitLength : Option Int64
  arenaNull : Bool

/-- What came of a step. -/
inductive StepResult where
  /-- The step named something that is not there, and did nothing. -/
  | badInput
  /-- The step did not come to its end. -/
  | crashed (crash : Crash)
  /-- The step has nothing to show. -/
  | done
  /-- A parse without a session; a failure shows nothing. -/
  | parsed (token : Option Token)
  /-- A parse of a session. -/
  | sessionParsed (outcome : Except Error Token)
  /-- The options of a session. -/
  | options (options : SessionOptions)
  /-- A new guard. -/
  | acquired (facts : GuardFacts)
  /-- A guard and a reading of its tree. -/
  | inspected (facts : GuardFacts) (tree : Memory.Reading)
  /-- A raw handle that is null. -/
  | handedNull
  /-- A raw handle that is not null. -/
  | handed (facts : HandleFacts)
  /-- The text of a grammar. -/
  | text (text : String)
  /-- How many parses of the workers matched. -/
  | matched (count : Nat)

/-! ## 2. What clients keep -/

/-- A raw handle: where it came from and, once its owner has released it, how many runs there had
been by then. -/
structure RawHandle (n : Nat) where
  engine : Fin n
  handle : Nat
  releasedAt : Option Nat := none

/-- The host, how often each grammar was asked, and all that clients keep, the latest first. -/
structure ClientState (n : Nat) where
  host : Host n
  calls : List Nat
  guards : List (String × Guard n) := []
  handles : List (String × RawHandle n) := []

/-- A number of engines with the grammars and the sessions over them. -/
structure Setting where
  engines : Nat
  grammars : List Grammar
  sessions : List (Session engines)

namespace ClientState

variable {n : Nat} {α : Type}

/-- The state before the first step. -/
def start (n grammars : Nat) : ClientState n :=
  { host := .start n, calls := List.replicate grammars 0 }

/-- An action on the host. -/
def onHost (x : Action (Host n) α) : Action (ClientState n) α :=
  x.focus ClientState.host fun host s => { s with host }

/-- The events and the value of a look at memory. -/
def lookAtMemory (f : Memory → List Event × α) : Action (ClientState n) α :=
  .look fun s => f s.host.heap.memory

/-- The state with one more call of a grammar. -/
def countCall (k : Nat) (s : ClientState n) : ClientState n :=
  { s with calls := s.calls.modify k (· + 1) }

/-- A grammar's script for its next call, which is counted. -/
def nextScript (k : Nat) (g : Grammar) : Action (ClientState n) Script := do
  let s ← .current
  .change (countCall k)
  pure (g (s.calls.getD k 0))

/-- The state with a new guard. -/
def keepGuard (name : String) (g : Guard n) (s : ClientState n) : ClientState n :=
  { s with guards := (name, g) :: s.guards }

/-- The state without a guard. -/
def forgetGuard (name : String) (s : ClientState n) : ClientState n :=
  { s with guards := s.guards.filter fun entry => entry.1 ≠ name }

/-- The state with a new raw handle, or with another entry for one. -/
def keepHandle (name : String) (h : RawHandle n) (s : ClientState n) : ClientState n :=
  { s with handles := (name, h) :: s.handles.filter fun entry => entry.1 ≠ name }

end ClientState

/-! ## 3. Steps over guards -/

namespace Step

variable {n : Nat}

open ClientState

/-- What a guard shows. -/
def guardFacts (g : Guard n) : Action (ClientState n) GuardFacts :=
  lookAtMemory fun m => ([], ⟨g.isNull, (g.root? m).isSome, g.bitLength? m⟩)

/-- A new guard under a name. -/
def acquireGuard (A : Allocators) (name : String) (i : Fin n) (k : Nat) (g : Grammar)
    (input : List UInt8) : Action (ClientState n) StepResult := do
  let script ← nextScript k g
  let guard ← onHost (Guard.acquire A i script input)
  .change (keepGuard name guard)
  let facts ← guardFacts guard
  pure (.acquired facts)

/-- A look at a guard; a missing root is read as a null pointer. -/
def inspectGuard (g : Guard n) (limit : Option UInt64) : Action (ClientState n) StepResult := do
  let facts ← guardFacts g
  let tree ← lookAtMemory fun m => m.reading ((g.root? m).getD 0) limit
  pure (.inspected facts tree)

/-- The end of a guard. -/
def dropGuard (name : String) (g : Guard n) : Action (ClientState n) StepResult := do
  onHost g.drop
  .change (forgetGuard name)
  pure .done

/-- The text of the panic that a guard is lost to. -/
def abortText (rootPresent : Bool) : String :=
  if rootPresent then "aborted, root present" else "aborted, root absent"

/-- A guard that is lost to a panic, which drops it. -/
def acquireAndPanic (A : Allocators) (i : Fin n) (script : Script) (input : List UInt8) :
    Action (Host n) StepResult :=
  Guard.holding A i script input fun g => do
    let host ← .current
    .crash (.panic (abortText (g.root? host.heap.memory).isSome))

/-! ## 4. Steps over raw handles -/

/-- What a raw handle shows; a null root shows no tree. -/
def handleFacts (handle : Nat) : Action (ClientState n) HandleFacts :=
  lookAtMemory fun m =>
    let root := (m.resultRoot handle).getD 0
    let rest := fun tree : Option Memory.Reading =>
      (⟨tree, m.resultBitLength handle, m.resultArena handle == some 0⟩ : HandleFacts)
    if root = 0 then ([], rest none)
    else
      let (events, tree) := m.reading root none
      (events, rest (some tree))

/-- A run without a guard. -/
def runRaw (A : Allocators) (name : String) (i : Fin n) (k : Nat) (g : Grammar)
    (input : List UInt8) : Action (ClientState n) StepResult := do
  let script ← nextScript k g
  let handle ← onHost (Host.run A i script input)
  .change (keepHandle name ⟨i, handle, none⟩)
  if handle = 0 then pure .handedNull
  else
    let facts ← handleFacts handle
    pure (.handed facts)

/-- Whether a raw handle may stand for another result by now. -/
def isStale (h : RawHandle n) (host : Host n) : Bool :=
  match h.releasedAt with
  | none => false
  | some runs => h.handle ≠ 0 && runs ≠ host.totalRuns

/-- The state in which a release on its owner is noted with a raw handle. -/
def noteRelease (name : String) (h : RawHandle n) (s : ClientState n) : ClientState n :=
  s.keepHandle name { h with releasedAt := some s.host.totalRuns }

/-- A release of a raw handle that is not stale, on any engine. -/
def releaseRaw (name : String) (h : RawHandle n) (i : Fin n) :
    Action (ClientState n) StepResult := do
  let s ← .current
  if isStale h s.host then pure .badInput
  else
    onHost (Host.release i h.handle)
    .change (if i = h.engine then noteRelease name h else id)
    pure .done

/-! ## 5. Steps over sessions -/

/-- The input of a worker's round: the two numbers in decimal, one after the other. -/
def workerInput (worker round : Nat) : List UInt8 :=
  (worker.repr ++ round.repr).toUTF8.toList

/-- Parses of several inputs in turn, without their events: how many of them matched. -/
def countMatches (A : Allocators) (session : Session n) (k : Nat) (g : Grammar) :
    List (List UInt8) → Action (ClientState n) Nat
  | [] => pure 0
  | input :: inputs => do
    let script ← nextScript k g
    let outcome ← (onHost (session.parse A script input)).silently
    let others ← countMatches A session k g inputs
    pure (if outcome.toOption.isSome then others + 1 else others)

/-- The inputs of each worker. -/
def crewInputs (crew rounds : Nat) : List (List (List UInt8)) :=
  (List.range crew).map fun worker => (List.range rounds).map (workerInput worker)

/-- The parses of several workers, without their events: how many of them matched.  A worker that
crashes ends alone, and that it is lost shows when all workers have ended. -/
def countCrewMatches (A : Allocators) (session : Session n) (k : Nat) (g : Grammar) :
    List (List (List UInt8)) → Action (ClientState n) Nat
  | [] => pure 0
  | inputs :: crew => do
    let own ← (countMatches A session k g inputs).attempt
    let others ← (countCrewMatches A session k g crew).attempt
    match own, others with
    | .ok ownCount, .ok otherCount => pure (ownCount + otherCount)
    | _, _ => .crash .workerLost

/-! ## 6. All steps -/

/-- An action on what a client keeps under a name, if there is such a thing. -/
def withNamed {α : Type} (entries : ClientState n → List (String × α)) (name : String)
    (f : α → Action (ClientState n) StepResult) : Action (ClientState n) StepResult := do
  let s ← .current
  match (entries s).lookup name with
  | some a => f a
  | none => pure .badInput

/-- An action that takes a name for itself, if the name is free. -/
def withFreeName {α : Type} (entries : ClientState n → List (String × α)) (name : String)
    (f : Action (ClientState n) StepResult) : Action (ClientState n) StepResult := do
  let s ← .current
  match (entries s).lookup name with
  | some _ => pure .badInput
  | none => f

/-- An action on an engine, if there is one with this number. -/
def withEngine (setting : Setting) (engine : Nat)
    (f : Fin setting.engines → Action (ClientState n) StepResult) :
    Action (ClientState n) StepResult :=
  if h : engine < setting.engines then f ⟨engine, h⟩ else pure .badInput

/-- An action on a grammar, if there is one with this number. -/
def withGrammar (setting : Setting) (grammar : Nat)
    (f : Grammar → Action (ClientState n) StepResult) : Action (ClientState n) StepResult :=
  match setting.grammars[grammar]? with
  | some g => f g
  | none => pure .badInput

/-- An action on a session, if there is one with this number. -/
def withSession (setting : Setting) (session : Nat)
    (f : Session setting.engines → Action (ClientState n) StepResult) :
    Action (ClientState n) StepResult :=
  match setting.sessions[session]? with
  | some s => f s
  | none => pure .badInput

/-- **What a step does.** -/
def perform (A : Allocators) (setting : Setting) :
    Step → Action (ClientState setting.engines) StepResult
  | .parse engine grammar input =>
    withEngine setting engine fun i => withGrammar setting grammar fun g => do
      let script ← nextScript grammar g
      let token ← onHost (Host.parse A i script input)
      pure (.parsed token)
  | .sessionParse session grammar input =>
    withSession setting session fun s => withGrammar setting grammar fun g => do
      let script ← nextScript grammar g
      let outcome ← onHost (s.parse A script input)
      pure (.sessionParsed outcome)
  | .sessionOptions session =>
    withSession setting session fun s => pure (.options s.options)
  | .acquire name engine grammar input =>
    withFreeName ClientState.guards name <|
      withEngine setting engine fun i => withGrammar setting grammar fun g =>
        acquireGuard A name i grammar g input
  | .inspect name limit =>
    withNamed ClientState.guards name fun guard => inspectGuard guard limit
  | .drop name =>
    withNamed ClientState.guards name fun guard => dropGuard name guard
  | .acquirePanic engine grammar input =>
    withEngine setting engine fun i => withGrammar setting grammar fun g => do
      let script ← nextScript grammar g
      onHost (acquireAndPanic A i script input)
  | .run name engine grammar input =>
    withFreeName ClientState.handles name <|
      withEngine setting engine fun i => withGrammar setting grammar fun g =>
        runRaw A name i grammar g input
  | .release name engine =>
    withNamed ClientState.handles name fun raw => withEngine setting engine fun i =>
      releaseRaw name raw i
  | .releaseNull engine =>
    withEngine setting engine fun i => do
      onHost (Host.release i 0)
      pure .done
  | .grammarText grammar =>
    withGrammar setting grammar fun _ => pure (.text Grammar.structureText)
  | .workers engine grammar crew rounds =>
    withEngine setting engine fun i => withGrammar setting grammar fun g => do
      let count ← countCrewMatches A (.new i) grammar g (crewInputs crew rounds)
      pure (.matched count)

end Step

end TokenImage
