/-
# The calls of a step

A step of a client comes to calls of engines, and which they are is known beforehand
(`Step.calls`): a parse is a run and a release, a guard or a raw handle is a run when it is made and
a release when it is given up, and workers are parses in turn.  A step that names something that is
not there makes no call.

`Step.effect_perform` says that this is all there is to a step: the host is as the calls leave it,
the warnings are what the engines reported of the calls, and the client notes what it has been given
and what it has given back (`ClientState.Noted`).
-/
import TokenImage.Proofs.Engine.ParseCalls
import TokenImage.Scenario.Run

namespace TokenImage

/-! ## 1. The calls -/

namespace ClientState

variable {n : Nat}

/-- What a grammar answers when it is asked next. -/
def script (s : ClientState n) (k : Nat) (g : Grammar) : Script :=
  g (s.calls.getD k 0)

/-- The state after a question to a grammar and calls of engines. -/
def afterCalls (A : Allocators) (s : ClientState n) (k : Nat) (cs : List (Call n)) :
    ClientState n :=
  { countCall k s with host := (s.host.calls A cs).2 }

end ClientState

namespace Step

variable {n : Nat}

open ClientState

/-- Calls of an engine, if there is one with this number. -/
def engineCalls (setting : Setting) (engine : Nat)
    (f : Fin setting.engines → List (Call n)) : List (Call n) :=
  if h : engine < setting.engines then f ⟨engine, h⟩ else []

/-- Calls that run a grammar, if there is one with this number. -/
def grammarCalls (setting : Setting) (grammar : Nat) (f : Grammar → List (Call n)) :
    List (Call n) :=
  setting.grammars[grammar]?.elim [] f

/-- The calls of a worker; they end with a run that crashes. -/
def workerCalls (A : Allocators) (session : Session n) (k : Nat) (g : Grammar)
    (s : ClientState n) : List (List UInt8) → List (Call n)
  | [] => []
  | input :: inputs =>
    let cs := s.host.parseCalls A session.engine (s.script k g) input
    match ((Host.run A session.engine (s.script k g) input).run s.host).result with
    | .error _ => cs
    | .ok _ => cs ++ workerCalls A session k g (s.afterCalls A k cs) inputs

/-- The calls of several workers. -/
def crewCalls (A : Allocators) (session : Session n) (k : Nat) (g : Grammar) (s : ClientState n) :
    List (List (List UInt8)) → List (Call n)
  | [] => []
  | inputs :: crew =>
    workerCalls A session k g s inputs ++
      crewCalls A session k g ((countMatches A session k g inputs).run s).state crew

/-- **The calls of a step.** -/
def calls (A : Allocators) (setting : Setting) (s : ClientState setting.engines) :
    Step → List (Call setting.engines)
  | .parse engine grammar input =>
    engineCalls setting engine fun i => grammarCalls setting grammar fun g =>
      s.host.parseCalls A i (s.script grammar g) input
  | .sessionParse session grammar input =>
    setting.sessions[session]?.elim [] fun session => grammarCalls setting grammar fun g =>
      s.host.parseCalls A session.engine (s.script grammar g) input
  | .sessionOptions _ => []
  | .acquire name engine grammar input =>
    if (s.guards.lookup name).isSome then []
    else engineCalls setting engine fun i => grammarCalls setting grammar fun g =>
      [.run i (s.script grammar g) input]
  | .inspect _ _ => []
  | .drop name =>
    (s.guards.lookup name).elim [] fun guard => [.release guard.engine guard.handle]
  | .acquirePanic engine grammar input =>
    engineCalls setting engine fun i => grammarCalls setting grammar fun g =>
      s.host.parseCalls A i (s.script grammar g) input
  | .run name engine grammar input =>
    if (s.handles.lookup name).isSome then []
    else engineCalls setting engine fun i => grammarCalls setting grammar fun g =>
      [.run i (s.script grammar g) input]
  | .release name engine =>
    (s.handles.lookup name).elim [] fun raw => engineCalls setting engine fun i =>
      if isStale raw s.host then [] else [.release i raw.handle]
  | .releaseNull engine => engineCalls setting engine fun i => [.release i 0]
  | .grammarText _ => []
  | .workers engine grammar crew rounds =>
    engineCalls setting engine fun i => grammarCalls setting grammar fun g =>
      crewCalls A (.new i) grammar g s (crewInputs crew rounds)

end Step

/-! ## 2. What a step comes to -/

namespace ClientState

variable {n : Nat} {A : Allocators} {s : ClientState n} {cs ds : List (Call n)} {α β : Type}

/-- **What a client notes of calls**: the guards and the raw handles that it keeps after them. -/
inductive Noted (A : Allocators) (s : ClientState n) :
    List (Call n) → List (String × Guard n) → List (String × RawHandle n) → Prop
  /-- Parses are not noted. -/
  | parses {cs : List (Call n)} (h : s.host.Parses A cs) : Noted A s cs s.guards s.handles
  /-- A guard is noted under a name that was free. -/
  | acquired {name i script input handle} (hfree : s.guards.lookup name = none)
      (hrun : ((Host.run A i script input).run s.host).result = .ok handle) :
      Noted A s [.run i script input] ((name, ⟨i, handle⟩) :: s.guards) s.handles
  /-- A guard is struck out when it is dropped. -/
  | dropped {name guard} (hname : s.guards.lookup name = some guard) :
      Noted A s [.release guard.engine guard.handle] (forgetGuard name s).guards s.handles
  /-- A raw handle is noted under a name that was free. -/
  | handed {name i script input handle} (hfree : s.handles.lookup name = none)
      (hrun : ((Host.run A i script input).run s.host).result = .ok handle) :
      Noted A s [.run i script input] s.guards (keepHandle name ⟨i, handle, none⟩ s).handles
  /-- A raw handle that its owner releases is noted as such. -/
  | released {name raw} (hname : s.handles.lookup name = some raw)
      (hfresh : Step.isStale raw s.host = false) :
      Noted A s [.release raw.engine raw.handle] s.guards
        (keepHandle name { raw with releasedAt := some s.host.totalRuns } s).handles
  /-- What another engine makes of it is not noted. -/
  | offered {name raw i} (hname : s.handles.lookup name = some raw)
      (hfresh : Step.isStale raw s.host = false) (hi : i ≠ raw.engine) :
      Noted A s [.release i raw.handle] s.guards s.handles
  /-- A release of null is not noted. -/
  | releasedNull {i} : Noted A s [.release i 0] s.guards s.handles

/-- **What a step comes to**: calls, and notes of them. -/
structure Effect (A : Allocators) (s : ClientState n) (cs : List (Call n))
    (done : Performed (ClientState n) α) : Prop where
  host : done.state.host = (s.host.calls A cs).2
  warnings : done.events.filter Event.isWarning = (s.host.calls A cs).1.flatMap CallRecord.events
  noted : Noted A s cs done.state.guards done.state.handles

/-- What a step comes to that only parses. -/
structure OnlyParses (A : Allocators) (s : ClientState n) (cs : List (Call n))
    (done : Performed (ClientState n) α) : Prop where
  parses : s.host.Parses A cs
  host : done.state.host = (s.host.calls A cs).2
  guards : done.state.guards = s.guards
  handles : done.state.handles = s.handles
  warnings : done.events.filter Event.isWarning = []

namespace OnlyParses

variable {done : Performed (ClientState n) α} {done' : Performed (ClientState n) β}

theorem effect (h : OnlyParses A s cs done) : Effect A s cs done where
  host := h.host
  warnings := h.warnings.trans h.parses.reported_eq_nil.symm
  noted := by
    rw [h.guards, h.handles]
    exact .parses h.parses

/-- A step that does nothing parses nothing. -/
theorem idle {result : Except Crash α} {events : List Event}
    (h : events.filter Event.isWarning = []) : OnlyParses A s [] ⟨result, s, events⟩ :=
  ⟨.nil _, rfl, rfl, rfl, h⟩

/-- How it ends does not matter. -/
theorem congr (h : OnlyParses A s cs done) (hstate : done'.state = done.state)
    (hevents : done'.events = done.events) : OnlyParses A s cs done' := by
  refine ⟨h.parses, ?_, ?_, ?_, ?_⟩
  · rw [hstate, h.host]
  · rw [hstate, h.guards]
  · rw [hstate, h.handles]
  · rw [hevents, h.warnings]

/-- More parses may follow. -/
theorem append (h : OnlyParses A s cs done) (h' : OnlyParses A done.state ds done') {γ : Type}
    {last : Performed (ClientState n) γ} (hstate : last.state = done'.state)
    (hevents : last.events = done.events ++ done'.events) : OnlyParses A s (cs ++ ds) last := by
  have hparses := h'.parses
  have hhost := h'.host
  rw [h.host] at hparses hhost
  refine ⟨h.parses.append hparses, ?_, ?_, ?_, ?_⟩
  · rw [hstate, hhost, Host.calls_append]
  · rw [hstate, h'.guards, h.guards]
  · rw [hstate, h'.handles, h.handles]
  · rw [hevents, List.filter_append, h.warnings, h'.warnings]
    rfl

end OnlyParses

/-- An action of the host leaves the rest of the client's state alone. -/
theorem run_onHost (x : Action (Host n) α) (s : ClientState n) :
    (onHost x).run s =
      ⟨(x.run s.host).result, { s with host := (x.run s.host).state }, (x.run s.host).events⟩ := rfl

/-- A question to a grammar counts, and it reports nothing. -/
theorem run_nextScript_bind (k : Nat) (g : Grammar) (f : Script → Action (ClientState n) α)
    (s : ClientState n) :
    (nextScript k g >>= f).run s = (f (s.script k g)).run (countCall k s) := rfl

end ClientState

/-! ## 3. Steps that parse -/

namespace Step

variable {n : Nat} {A : Allocators} {s : ClientState n} {α : Type} {i : Fin n} {k : Nat}
  {g : Grammar} {input : List UInt8}

open ClientState

/-- A question to a grammar and a parse with its answer. -/
theorem onlyParses_parse {x : Script → Action (Host n) α}
    (hx : ∀ script, IsParse A i script input (x script)) :
    OnlyParses A s (s.host.parseCalls A i (s.script k g) input)
      ((nextScript k g >>= fun script => onHost (x script)).run s) := by
  rw [run_nextScript_bind, run_onHost]
  exact ⟨.one _ _ _ _, (hx _).state _, rfl, rfl, (hx _).warnings _⟩

/-- The same, with the answer put in other terms. -/
theorem onlyParses_parse_bind_pure {x : Script → Action (Host n) α}
    (hx : ∀ script, IsParse A i script input (x script)) (f : α → StepResult) :
    OnlyParses A s (s.host.parseCalls A i (s.script k g) input)
      ((nextScript k g >>= fun script => onHost (x script) >>= fun a => pure (f a)).run s) := by
  refine (onlyParses_parse (k := k) (g := g) hx).congr ?_ ?_
  · rw [run_nextScript_bind, run_nextScript_bind, Action.run_bind_pure]
  · rw [run_nextScript_bind, run_nextScript_bind, Action.run_bind_pure]

/-- A guard that is lost to a panic was a parse all the same. -/
theorem isParse_acquireAndPanic (script : Script) :
    IsParse A i script input (acquireAndPanic A i script input) :=
  Guard.isParse_holding (fun _ _ => rfl) fun _ _ => rfl

/-- The end of a run that crashes is a parse that crashes. -/
theorem parseCalls_of_crash {host host' : Host n} {script : Script} {c : Crash}
    {events : List Event}
    (h : (Host.run A i script input).run host = ⟨.error c, host', events⟩) :
    host.parseCalls A i script input = [.run i script input] := by
  simp only [Host.parseCalls, h]

/-- What the first parse of a worker leaves. -/
theorem run_silently_parse (session : Session n) (input : List UInt8) :
    (onHost (session.parse A (s.script k g) input)).silently.run (countCall k s) =
      ⟨((session.parse A (s.script k g) input).run s.host).result,
        s.afterCalls A k (s.host.parseCalls A session.engine (s.script k g) input), []⟩ := by
  have hstate := (session.isParse_parse A (s.script k g) input).state s.host
  rw [afterCalls, ← hstate]
  rfl

/-- The first parse of a worker is a parse. -/
theorem onlyParses_afterCalls (i : Fin n) (script : Script) (input : List UInt8)
    (result : Except Crash α) :
    OnlyParses A s (s.host.parseCalls A i script input)
      ⟨result, s.afterCalls A k (s.host.parseCalls A i script input), []⟩ :=
  ⟨.one _ _ _ _, rfl, rfl, rfl, rfl⟩

/-- **A worker parses in turn**, without a report. -/
theorem onlyParses_countMatches (session : Session n) (inputs : List (List UInt8)) :
    OnlyParses A s (workerCalls A session k g s inputs)
        ((countMatches A session k g inputs).run s) ∧
      ((countMatches A session k g inputs).run s).events = [] := by
  induction inputs generalizing s with
  | nil => exact ⟨.idle rfl, rfl⟩
  | cons input inputs ih =>
    have hfirst := run_silently_parse (A := A) (s := s) (k := k) (g := g) session input
    rw [countMatches, run_nextScript_bind]
    rcases Host.parse_cases A s.host session.engine (s.script k g) input with
      ⟨c, host', hrun, -⟩ | ⟨handle, host', hrun, -, -⟩
    · rw [Session.parse_of_crash hrun] at hfirst
      rw [Action.run_bind_of_error hfirst]
      refine ⟨?_, rfl⟩
      simp only [workerCalls, hrun]
      exact onlyParses_afterCalls _ _ _ _
    · obtain ⟨hrest, hevents⟩ := ih (s := s.afterCalls A k
        (s.host.parseCalls A session.engine (s.script k g) input))
      rw [Session.parse_of_handle hrun] at hfirst
      rw [Action.run_bind_of_ok hfirst, Action.run_bind_pure]
      simp only [workerCalls, hrun]
      refine ⟨(onlyParses_afterCalls (k := k) _ _ _ (.ok ())).append hrest rfl ?_, ?_⟩
      · rfl
      · rw [hevents]
        rfl

/-- **Workers parse in turn**, the next one also after one that was lost. -/
theorem onlyParses_countCrewMatches (session : Session n) (crew : List (List (List UInt8))) :
    OnlyParses A s (crewCalls A session k g s crew)
        ((countCrewMatches A session k g crew).run s) ∧
      ((countCrewMatches A session k g crew).run s).events = [] := by
  induction crew generalizing s with
  | nil => exact ⟨.idle rfl, rfl⟩
  | cons inputs crew ih =>
    obtain ⟨hown, hownEvents⟩ := onlyParses_countMatches (A := A) (s := s) (k := k) (g := g)
      session inputs
    obtain ⟨hrest, hrestEvents⟩ := ih (s := ((countMatches A session k g inputs).run s).state)
    have hrun : ((countCrewMatches A session k g (inputs :: crew)).run s).state =
          ((countCrewMatches A session k g crew).run
            ((countMatches A session k g inputs).run s).state).state ∧
        ((countCrewMatches A session k g (inputs :: crew)).run s).events = [] := by
      rw [countCrewMatches, Action.run_bind_of_ok (Action.run_attempt_of_events hownEvents),
        Action.run_bind_of_ok (Action.run_attempt_of_events hrestEvents)]
      cases ((countMatches A session k g inputs).run s).result with
      | error c => exact ⟨rfl, rfl⟩
      | ok ownCount =>
        cases ((countCrewMatches A session k g crew).run
            ((countMatches A session k g inputs).run s).state).result with
        | error c => exact ⟨rfl, rfl⟩
        | ok otherCount => exact ⟨rfl, rfl⟩
    refine ⟨hown.append hrest hrun.1 ?_, hrun.2⟩
    rw [hrun.2, hownEvents, hrestEvents]
    rfl

/-! ## 4. Steps that keep handles -/

variable {name : String} {setting : Setting}

/-- A run that crashes leaves nothing to note. -/
theorem onlyParses_run_of_crash {script : Script} {host' : Host n} {c : Crash}
    (h : (Host.run A i script input).run s.host = ⟨.error c, host', []⟩) (result : Except Crash α) :
    OnlyParses A s [.run i script input] ⟨result, { countCall k s with host := host' }, []⟩ := by
  refine ⟨?_, ?_, rfl, rfl, rfl⟩
  · rw [← parseCalls_of_crash h]
    exact .one _ _ _ _
  · simp only [Host.calls, Host.call, h]

/-- What is left after a run that gave a handle, once the client has noted it. -/
theorem effect_of_run {script : Script} {host' : Host n} {handle : Nat}
    (h : (Host.run A i script input).run s.host = ⟨.ok handle, host', []⟩)
    {done : Performed (ClientState n) α} (hhost : done.state.host = host')
    (hevents : done.events.filter Event.isWarning = [])
    (hnoted : Noted A s [.run i script input] done.state.guards done.state.handles) :
    Effect A s [.run i script input] done := by
  refine ⟨?_, ?_, hnoted⟩
  · simp only [hhost, Host.calls, Host.call, h]
  · simp only [hevents, Host.calls, Host.call, h]
    rfl

/-- What a client gets of a run, once the call of the grammar is counted. -/
theorem run_onHost_run {x : Performed (Host n) Nat}
    (hrun : (Host.run A i (s.script k g) input).run s.host = x) :
    (onHost (Host.run A i (s.script k g) input)).run (countCall k s) =
      ⟨x.result, { countCall k s with host := x.state }, x.events⟩ := by
  have hhost : (countCall k s).host = s.host := rfl
  rw [run_onHost, hhost, hrun]

theorem run_onHost_acquire {x : Performed (Host n) Nat}
    (hrun : (Host.run A i (s.script k g) input).run s.host = x) :
    (onHost (Guard.acquire A i (s.script k g) input)).run (countCall k s) =
      ⟨x.result.map (Guard.mk i), { countCall k s with host := x.state }, x.events⟩ := by
  have hhost : (countCall k s).host = s.host := rfl
  rw [run_onHost, Guard.acquire, Action.run_bind_pure, hhost, hrun]

/-- No guard comes of a run that crashes. -/
theorem run_acquireGuard_of_crash {host' : Host n} {c : Crash}
    (hrun : (Host.run A i (s.script k g) input).run s.host = ⟨.error c, host', []⟩) :
    (acquireGuard A name i k g input).run s =
      ⟨.error c, { countCall k s with host := host' }, []⟩ := by
  rw [acquireGuard, run_nextScript_bind]
  exact Action.run_bind_of_error (run_onHost_acquire hrun)

/-- No raw handle comes of a run that crashes. -/
theorem run_runRaw_of_crash {host' : Host n} {c : Crash}
    (hrun : (Host.run A i (s.script k g) input).run s.host = ⟨.error c, host', []⟩) :
    (runRaw A name i k g input).run s = ⟨.error c, { countCall k s with host := host' }, []⟩ := by
  rw [runRaw, run_nextScript_bind]
  exact Action.run_bind_of_error (run_onHost_run hrun)

/-- **A new guard is a run**, and it is noted. -/
theorem effect_acquireGuard (hfree : s.guards.lookup name = none) :
    Effect A s [.run i (s.script k g) input] ((acquireGuard A name i k g input).run s) := by
  rcases Host.run_ends A i (s.script k g) input s.host with
    ⟨c, host', hrun⟩ | ⟨handle, host', hrun⟩
  · rw [run_acquireGuard_of_crash hrun]
    exact (onlyParses_run_of_crash hrun _).effect
  · have hresult : ((Host.run A i (s.script k g) input).run s.host).result = .ok handle := by
      rw [hrun]
    rw [acquireGuard, run_nextScript_bind, Action.run_bind_of_ok (run_onHost_acquire hrun)]
    exact effect_of_run hrun rfl rfl (.acquired hfree hresult)

/-- A look at a guard does nothing, and it does not warn. -/
theorem onlyParses_inspectGuard (guard : Guard n) (limit : Option UInt64) :
    OnlyParses A s [] ((inspectGuard guard limit).run s) := by
  have hreading := Decoder.decode_warnings { maxDepth := limit } s.host.heap.memory
    ((guard.root? s.host.heap.memory).getD 0)
  rw [← List.append_nil (Decoder.decode _ _ _).events] at hreading
  exact .idle hreading

/-- So does a look at a raw handle. -/
theorem onlyParses_handleFacts (handle : Nat) :
    OnlyParses A s [] ((handleFacts handle).run s) := by
  refine .idle ?_
  dsimp only
  split
  · rfl
  · exact Decoder.decode_warnings { maxDepth := none } _ _

/-- **A raw handle is a run**, and it is noted. -/
theorem effect_runRaw (hfree : s.handles.lookup name = none) :
    Effect A s [.run i (s.script k g) input] ((runRaw A name i k g input).run s) := by
  rcases Host.run_ends A i (s.script k g) input s.host with
    ⟨c, host', hrun⟩ | ⟨handle, host', hrun⟩
  · rw [run_runRaw_of_crash hrun]
    exact (onlyParses_run_of_crash hrun _).effect
  · have hresult : ((Host.run A i (s.script k g) input).run s.host).result = .ok handle := by
      rw [hrun]
    rw [runRaw, run_nextScript_bind, Action.run_bind_of_ok (run_onHost_run hrun)]
    by_cases h0 : handle = 0
    · rw [if_pos h0]
      exact effect_of_run hrun rfl rfl (.handed hfree hresult)
    · rw [if_neg h0]
      have hfacts := onlyParses_handleFacts (A := A) handle
        (s := keepHandle name ⟨i, handle, none⟩ { countCall k s with host := host' })
      refine effect_of_run hrun rfl ?_ (.handed hfree hresult)
      exact (congrArg (List.filter Event.isWarning) (List.append_nil _)).trans hfacts.warnings

/-! ## 5. Steps that give handles up -/

/-- All that an engine reports of a release is a warning. -/
theorem warnings_release (i : Fin n) (handle : Nat) (host : Host n) :
    ((Host.release i handle).run host).events.filter Event.isWarning =
      ((Host.release i handle).run host).events := by
  rcases Host.release_cases i handle host with ⟨-, hrun⟩ | ⟨tree, -, -, hrun⟩ | ⟨-, -, hrun⟩
  all_goals
    rw [hrun]
    rfl

/-- What is left after a release, once the client has noted it. -/
theorem effect_of_release {handle : Nat} {done : Performed (ClientState n) α}
    (hhost : done.state.host = ((Host.release i handle).run s.host).state)
    (hevents : done.events = ((Host.release i handle).run s.host).events)
    (hnoted : Noted A s [.release i handle] done.state.guards done.state.handles) :
    Effect A s [.release i handle] done := by
  refine ⟨hhost, ?_, hnoted⟩
  rw [hevents, warnings_release]
  exact (List.append_nil _).symm

theorem run_onHost_release (i : Fin n) (handle : Nat) :
    (onHost (Host.release i handle)).run s =
      ⟨.ok (), { s with host := ((Host.release i handle).run s.host).state },
        ((Host.release i handle).run s.host).events⟩ := by
  rw [run_onHost, Host.result_release]

/-- **The end of a guard is a release**, and it is noted. -/
theorem effect_dropGuard {guard : Guard n} (hname : s.guards.lookup name = some guard) :
    Effect A s [.release guard.engine guard.handle] ((dropGuard name guard).run s) := by
  rw [dropGuard, Guard.drop, Action.run_bind_of_ok (run_onHost_release _ _)]
  refine effect_of_release rfl ?_ (.dropped hname)
  exact List.append_nil _

/-- **A release of a raw handle is a release**, and it is noted if the owner was asked. -/
theorem effect_releaseRaw {raw : RawHandle n} (hname : s.handles.lookup name = some raw) :
    Effect A s (if isStale raw s.host then [] else [.release i raw.handle])
      ((releaseRaw name raw i).run s) := by
  rw [releaseRaw, Action.run_current_bind]
  cases hstale : isStale raw s.host with
  | true =>
    rw [if_pos rfl, if_pos rfl]
    exact OnlyParses.effect (.idle rfl)
  | false =>
    rw [if_neg Bool.false_ne_true, if_neg Bool.false_ne_true,
      Action.run_bind_of_ok (run_onHost_release _ _)]
    by_cases hi : i = raw.engine
    · subst hi
      rw [if_pos rfl]
      refine effect_of_release rfl (List.append_nil _) ?_
      have hnoted := Noted.released (A := A) hname hstale
      rw [← Host.totalRuns_release raw.engine raw.handle] at hnoted
      exact hnoted
    · rw [if_neg hi]
      exact effect_of_release rfl (List.append_nil _) (.offered hname hstale hi)

/-- A release of null is a release. -/
theorem effect_releaseNull :
    Effect A s [.release i 0] ((onHost (Host.release i 0) >>= fun _ =>
      (pure .done : Action (ClientState n) StepResult)).run s) := by
  rw [Action.run_bind_of_ok (run_onHost_release _ _)]
  refine effect_of_release rfl ?_ .releasedNull
  exact List.append_nil _

/-! ## 6. All steps -/

section Parties

variable {s : ClientState setting.engines} {engine grammar : Nat}

/-- A step on an engine makes its calls if there is the engine. -/
theorem effect_withEngine {f : Fin setting.engines → Action (ClientState setting.engines) StepResult}
    {calls : Fin setting.engines → List (Call setting.engines)}
    (h : ∀ i, Effect A s (calls i) ((f i).run s)) :
    Effect A s (engineCalls setting engine calls) ((withEngine setting engine f).run s) := by
  unfold engineCalls withEngine
  split
  · exact h _
  · exact OnlyParses.effect (.idle rfl)

/-- A step with a grammar makes its calls if there is the grammar. -/
theorem effect_withGrammar {f : Grammar → Action (ClientState setting.engines) StepResult}
    {calls : Grammar → List (Call setting.engines)} (h : ∀ g, Effect A s (calls g) ((f g).run s)) :
    Effect A s (grammarCalls setting grammar calls) ((withGrammar setting grammar f).run s) := by
  unfold grammarCalls withGrammar
  cases setting.grammars[grammar]? with
  | none => exact OnlyParses.effect (.idle rfl)
  | some g => exact h g

/-- A step of a session makes its calls if there is the session. -/
theorem effect_withSession {session : Nat}
    {f : Session setting.engines → Action (ClientState setting.engines) StepResult}
    {calls : Session setting.engines → List (Call setting.engines)}
    (h : ∀ session, Effect A s (calls session) ((f session).run s)) :
    Effect A s (setting.sessions[session]?.elim [] calls)
      ((withSession setting session f).run s) := by
  unfold withSession
  cases setting.sessions[session]? with
  | none => exact OnlyParses.effect (.idle rfl)
  | some session => exact h session

end Parties

/-- A step on what is kept under a name makes its calls if there is such a thing. -/
theorem effect_withNamed {entries : ClientState n → List (String × α)}
    {f : α → Action (ClientState n) StepResult} {calls : α → List (Call n)}
    (h : ∀ a, (entries s).lookup name = some a → Effect A s (calls a) ((f a).run s)) :
    Effect A s (((entries s).lookup name).elim [] calls) ((withNamed entries name f).run s) := by
  rw [withNamed, Action.run_current_bind]
  cases hname : (entries s).lookup name with
  | none => exact OnlyParses.effect (.idle rfl)
  | some a => exact h a hname

/-- A step that takes a name makes its calls if the name is free. -/
theorem effect_withFreeName {entries : ClientState n → List (String × α)}
    {f : Action (ClientState n) StepResult} {calls : List (Call n)}
    (h : (entries s).lookup name = none → Effect A s calls (f.run s)) :
    Effect A s (if ((entries s).lookup name).isSome then [] else calls)
      ((withFreeName entries name f).run s) := by
  rw [withFreeName, Action.run_current_bind]
  cases hname : (entries s).lookup name with
  | none => exact h hname
  | some a => exact OnlyParses.effect (.idle rfl)

/-- **Every step comes to its calls.** -/
theorem effect_perform (A : Allocators) (setting : Setting) (s : ClientState setting.engines)
    (step : Step) : Effect A s (step.calls A setting s) ((step.perform A setting).run s) := by
  cases step with
  | parse engine grammar input =>
    rw [calls, perform]
    refine effect_withEngine fun i => effect_withGrammar ?_
    intro g
    exact (onlyParses_parse_bind_pure (fun script => Host.isParse_parse A i script input) _).effect
  | sessionParse session grammar input =>
    rw [calls, perform]
    refine effect_withSession fun session => effect_withGrammar ?_
    intro g
    exact (onlyParses_parse_bind_pure (fun script => session.isParse_parse A script input) _).effect
  | sessionOptions session =>
    rw [calls, perform, withSession]
    cases setting.sessions[session]? with
    | none => exact OnlyParses.effect (.idle rfl)
    | some session => exact OnlyParses.effect (.idle rfl)
  | acquire name engine grammar input =>
    rw [calls, perform]
    refine effect_withFreeName fun hfree => effect_withEngine fun i => effect_withGrammar ?_
    intro g
    exact effect_acquireGuard hfree
  | inspect name limit =>
    rw [calls, perform, withNamed, Action.run_current_bind]
    cases s.guards.lookup name with
    | none => exact OnlyParses.effect (.idle rfl)
    | some guard => exact (onlyParses_inspectGuard guard limit).effect
  | drop name =>
    rw [calls, perform]
    exact effect_withNamed fun guard hname => effect_dropGuard hname
  | acquirePanic engine grammar input =>
    rw [calls, perform]
    refine effect_withEngine fun i => effect_withGrammar ?_
    intro g
    exact (onlyParses_parse isParse_acquireAndPanic).effect
  | run name engine grammar input =>
    rw [calls, perform]
    refine effect_withFreeName fun hfree => effect_withEngine fun i => effect_withGrammar ?_
    intro g
    exact effect_runRaw hfree
  | release name engine =>
    rw [calls, perform]
    exact effect_withNamed fun raw hname => effect_withEngine fun i => effect_releaseRaw hname
  | releaseNull engine =>
    rw [calls, perform]
    exact effect_withEngine fun i => effect_releaseNull
  | grammarText grammar =>
    rw [calls, perform, withGrammar]
    cases setting.grammars[grammar]? with
    | none => exact OnlyParses.effect (.idle rfl)
    | some g => exact OnlyParses.effect (.idle rfl)
  | workers engine grammar crew rounds =>
    rw [calls, perform]
    refine effect_withEngine fun i => effect_withGrammar ?_
    intro g
    have hcrew := onlyParses_countCrewMatches (A := A) (s := s) (k := grammar) (g := g) (.new i)
      (crewInputs crew rounds)
    rw [Action.run_bind_pure]
    refine OnlyParses.effect (hcrew.1.congr ?_ ?_)
    · rfl
    · rfl

end Step

end TokenImage
