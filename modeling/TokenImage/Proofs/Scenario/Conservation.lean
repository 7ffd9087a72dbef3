/-
# Handles are conserved

Clients parse, keep guards and raw handles, drop them, lose them to panics and release them on the
right engine, on a wrong one or twice.  All that the engines take part in are calls, and the history
of the calls is all that a ledger needs.  `Scenario.Conserved` says what holds of an engine at any
point of a scenario: its counters and its table agree with its ledger, its warnings are those that
the clients see, and what it has out is what the clients have open.

A scenario is any list of steps, so that every state that clients reach is the last one of some
scenario; `Scenario.conserved` has no hypothesis.

* `reportStep_effect` is the step, which clients' notes survive by `Faithful.noted` and the books of
  the host by `Host.Accounts.calls`;
* `reportSteps_calls`, `reportSteps_warnings` and `faithful_reportSteps` are the inductions over a
  scenario.
-/
import TokenImage.Proofs.Scenario.Notes

namespace TokenImage.Scenario

variable {A : Allocators} {setting : Setting}

/-! ## 1. The calls of a scenario -/

/-- The calls of a step, or of none. -/
def stepCalls (A : Allocators) (setting : Setting) (s : ClientState setting.engines) :
    Option Step → List (Call setting.engines)
  | none => []
  | some step => step.calls A setting s

/-- The calls of steps in turn. -/
def callsFrom (A : Allocators) (setting : Setting) (s : ClientState setting.engines) :
    List (Option Step) → List (Call setting.engines)
  | [] => []
  | step :: steps =>
    stepCalls A setting s step ++ callsFrom A setting (reportStep A setting s step).2 steps

/-- What is reported of a scenario, and the state that its clients reach. -/
def reached (A : Allocators) (scenario : Scenario) :
    List StepReport × ClientState scenario.setting.engines :=
  reportSteps A scenario.setting
    (ClientState.start scenario.setting.engines scenario.setting.grammars.length) scenario.steps

/-- All calls of a scenario. -/
def calls (A : Allocators) (scenario : Scenario) : List (Call scenario.setting.engines) :=
  callsFrom A scenario.setting
    (ClientState.start scenario.setting.engines scenario.setting.grammars.length) scenario.steps

/-- The history of all calls of a scenario, made one after another on new engines. -/
def history (A : Allocators) (scenario : Scenario) : List (CallRecord scenario.setting.engines) :=
  ((Host.start scenario.setting.engines).calls A (scenario.calls A)).1

/-! ## 2. Steps in turn -/

/-- **A step comes to its calls**, also as it is reported. -/
theorem reportStep_effect (A : Allocators) (setting : Setting) (s : ClientState setting.engines)
    (step : Option Step) :
    (reportStep A setting s step).2.host = (s.host.calls A (stepCalls A setting s step)).2 ∧
      (reportStep A setting s step).1.events.filter Event.isWarning =
        (s.host.calls A (stepCalls A setting s step)).1.flatMap CallRecord.events ∧
      s.Noted A (stepCalls A setting s step) (reportStep A setting s step).2.guards
        (reportStep A setting s step).2.handles := by
  cases step with
  | none => exact ⟨rfl, rfl, .parses (.nil _)⟩
  | some step =>
    have heffect := Step.effect_perform A setting s step
    exact ⟨heffect.host, heffect.warnings, heffect.noted⟩

/-- Steps in turn leave the host as their calls do. -/
theorem reportSteps_calls (s : ClientState setting.engines) (steps : List (Option Step)) :
    (reportSteps A setting s steps).2.host = (s.host.calls A (callsFrom A setting s steps)).2 := by
  induction steps generalizing s with
  | nil => rfl
  | cons step steps ih =>
    obtain ⟨hhost, -, -⟩ := reportStep_effect A setting s step
    rw [callsFrom, Host.calls_append, ← hhost]
    exact ih _

/-- Steps in turn warn of what the engines report, in order. -/
theorem reportSteps_warnings (s : ClientState setting.engines) (steps : List (Option Step)) :
    ((reportSteps A setting s steps).1.flatMap StepReport.events).filter Event.isWarning =
      (s.host.calls A (callsFrom A setting s steps)).1.flatMap CallRecord.events := by
  induction steps generalizing s with
  | nil => rfl
  | cons step steps ih =>
    obtain ⟨hhost, hwarnings, -⟩ := reportStep_effect A setting s step
    have hrest := ih (reportStep A setting s step).2
    rw [hhost] at hrest
    rw [callsFrom, Host.calls_append, List.flatMap_append, ← hwarnings, ← hrest,
      ← List.filter_append]
    rfl

/-- Steps in turn keep the notes of the clients true. -/
theorem faithful_reportSteps (setting : Setting) {s : ClientState setting.engines}
    (h : Faithful s.host s.guards s.handles) (steps : List (Option Step)) :
    Faithful (reportSteps A setting s steps).2.host (reportSteps A setting s steps).2.guards
      (reportSteps A setting s steps).2.handles := by
  induction steps generalizing s with
  | nil => exact h
  | cons step steps ih =>
    obtain ⟨hhost, -, hnoted⟩ := reportStep_effect A setting s step
    have hstep := h.noted hnoted
    rw [← hhost] at hstep
    exact ih hstep

/-- The notes of the clients are true of the state that they reach. -/
theorem faithful_reached (A : Allocators) (scenario : Scenario) :
    Faithful (scenario.reached A).2.host (scenario.reached A).2.guards
      (scenario.reached A).2.handles :=
  faithful_reportSteps scenario.setting (faithful_start _) scenario.steps

/-- Nothing is out after everything that the clients still have has been released. -/
theorem outstandingAtEnd_eq_zero {scenario : Scenario} :
    ∀ count ∈ (scenario.run A).outstandingAtEnd, count = 0 := by
  intro count hcount
  have hfaithful := faithful_reached A scenario
  obtain ⟨engine, hengine, rfl⟩ := List.mem_map.mp hcount
  obtain ⟨k, hk, rfl⟩ := List.mem_iff_getElem.mp hengine
  rw [Vector.getElem_toList]
  rw [Vector.length_toList] at hk
  exact hfaithful.tracks.releaseAll hfaithful.owned ⟨k, hk⟩

/-! ## 3. Conservation -/

/-- **What holds in every state that clients reach.** -/
structure Conserved (A : Allocators) (scenario : Scenario) : Prop where
  /-- The engines have done the calls of the clients, and nothing else. -/
  host : (scenario.reached A).2.host =
    ((Host.start scenario.setting.engines).calls A (scenario.calls A)).2
  /-- The counters and the table of each engine agree with its ledger. -/
  balanced : ∀ i : Fin scenario.setting.engines,
    ((scenario.reached A).2.host.engine i).Balanced (Ledger.of i (scenario.history A))
  /-- No handle is out on two engines. -/
  disjoint : ∀ {i j : Fin scenario.setting.engines} {handle : Nat},
    handle ∈ ((scenario.reached A).2.host.engine i).live →
    handle ∈ ((scenario.reached A).2.host.engine j).live → i = j
  /-- The warnings that are seen are those that the engines reported of the calls, in order. -/
  warnings : ((scenario.reached A).1.flatMap StepReport.events).filter Event.isWarning =
    (scenario.history A).flatMap CallRecord.events
  /-- What an engine has out are the open handles of its own that are not null. -/
  outstanding : ∀ i : Fin scenario.setting.engines,
    ((scenario.reached A).2.host.engine i).outstanding =
      (openHandles (scenario.reached A).2).countP fun h => h.1 = i ∧ h.2 ≠ 0
  /-- Nothing is out once no guard is left and every raw handle was released by its owner. -/
  allReleased : (scenario.reached A).2.guards = [] →
    (∀ entry ∈ (scenario.reached A).2.handles, entry.2.releasedAt.isSome) →
    ∀ i : Fin scenario.setting.engines, ((scenario.reached A).2.host.engine i).outstanding = 0
  /-- Nothing is out after everything that is still open has been released at the end. -/
  atEnd : ∀ count ∈ (scenario.run A).outstandingAtEnd, count = 0

/-- **Handles are conserved** in every scenario: on any engines, with any grammars and for any
allocator whose blocks are new. -/
theorem conserved (A : Allocators) (scenario : Scenario) : scenario.Conserved A := by
  have hfaithful := faithful_reached A scenario
  have hhost : (scenario.reached A).2.host =
      ((Host.start scenario.setting.engines).calls A (scenario.calls A)).2 :=
    reportSteps_calls _ scenario.steps
  have hbooks := (Host.accounts_start scenario.setting.engines).calls (A := A) (scenario.calls A)
  rw [List.nil_append, ← hhost] at hbooks
  have houtstanding : ∀ i, ((scenario.reached A).2.host.engine i).outstanding =
      (openHandles (scenario.reached A).2).countP fun h => h.1 = i ∧ h.2 ≠ 0 :=
    hfaithful.tracks.outstanding hfaithful.owned
  refine ⟨hhost, hbooks.balanced, hbooks.owned.eq_of_isLive, reportSteps_warnings _ scenario.steps,
    houtstanding, fun hguards hreleased i => ?_, outstandingAtEnd_eq_zero⟩
  have hnone : (scenario.reached A).2.handles.filter
      (fun entry => entry.2.releasedAt.isNone) = [] := by
    refine List.filter_eq_nil_iff.mpr ?_
    intro entry hentry
    rw [Option.isNone_iff_eq_none]
    exact Option.isSome_iff_ne_none.mp (hreleased entry hentry)
  rw [houtstanding, openHandles, hguards, hnone]
  rfl

/-- A raw handle that is offered to another engine, and then released twice by its own. -/
def offering : Scenario where
  setting := { engines := 2, grammars := [GrammarRule.grammar .echo], sessions := [] }
  steps := [some (.run "h" 0 0 [0x61]), some (.release "h" 1), some (.release "h" 0),
    some (.release "h" 0)]

/-- The three releases are a stray one, the owner's and another stray one; then nothing is out. -/
theorem conserved_offering :
    ((Ledger.of (0 : Fin 2) (offering.history .ascending)).ownerReleases = 1 ∧
      (Ledger.of (0 : Fin 2) (offering.history .ascending)).strayReleases = 1 ∧
      (Ledger.of (1 : Fin 2) (offering.history .ascending)).strayReleases = 1) ∧
    (offering.reached .ascending).2.guards = [] ∧
    (∀ entry ∈ (offering.reached .ascending).2.handles, entry.2.releasedAt.isSome) ∧
    ∀ i : Fin 2, ((offering.reached .ascending).2.host.engine i).outstanding = 0 := by
  have hconserved := conserved .ascending offering
  have hguards : (offering.reached .ascending).2.guards = [] := rfl
  have hreleased : ∀ entry ∈ (offering.reached .ascending).2.handles,
      entry.2.releasedAt.isSome := by decide +kernel
  refine ⟨by decide +kernel, hguards, hreleased, ?_⟩
  intro i
  exact hconserved.allReleased hguards hreleased i

/-! ## 4. Runs that come to nothing -/

/-- A parse of a reply whose element array is larger than any block. -/
def overflowing : Scenario where
  setting :=
    { engines := 1
      grammars := [GrammarRule.grammar (.constant (.matched
        ((Node.sequence []).withSpareCapacity (2 ^ 60))))]
      sessions := [] }
  steps := [some (.parse 0 0 [])]

/-- **A run may come to nothing without a panic of its script**, where its reply cannot be laid out.
So the runs are more than the panics of scripts, the null results and the handles. -/
theorem runs_ne_of_overflow :
    ¬ ∀ (A : Allocators) (scenario : Scenario) (i : Fin scenario.setting.engines),
      ((scenario.reached A).2.host.engine i).runs =
        (Ledger.of i (scenario.history A)).scriptPanics +
          (Ledger.of i (scenario.history A)).nullResults +
          (Ledger.of i (scenario.history A)).handedOut := by
  intro h
  have hruns := h .ascending overflowing (0 : Fin 1)
  revert hruns
  decide +kernel

end TokenImage.Scenario
