/-
# Parses in turn

A parse keeps nothing: it makes two calls at most, a run and the release of what the run gave
(`Host.parseCalls`).  Whatever is done with the result in between, the host is afterwards as these
calls leave it, and nothing was warned of.  `Parses` has any number of parses in turn, by any
engines:

* `Parses.isLive_iff`: the same handles are out as before;
* `Parses.totalRuns_le`: the runs only grow;
* `Parses.reported_eq_nil`: the engines reported nothing.

`IsParse` says of an action that it comes to the calls of one parse.  The parses of sessions and of
hosts do, and so does every use of a guard that only looks at the result.
-/
import TokenImage.Proofs.Decoder.Events
import TokenImage.Proofs.Engine.Live

namespace TokenImage

variable {n : Nat} {A : Allocators} {host host' : Host n} {i j : Fin n} {script : Script}
  {input : List UInt8}

/-! ## 1. The calls of a parse -/

namespace Host

/-- The calls of a parse: a run, and a release of the handle that it gave. -/
def parseCalls (A : Allocators) (host : Host n) (i : Fin n) (script : Script)
    (input : List UInt8) : List (Call n) :=
  .run i script input ::
    match ((Host.run A i script input).run host).result with
    | .ok handle => [.release i handle]
    | .error _ => []

/-- An engine reports nothing of a run. -/
theorem events_run (A : Allocators) (i : Fin n) (script : Script) (input : List UInt8)
    (host : Host n) : ((Host.run A i script input).run host).events = [] := by
  rcases run_cases A i script input host with
    ⟨text, hrun⟩ | ⟨failure, hrun⟩ | hrun | ⟨reply, handle, tree, heap, -, hrun⟩
  all_goals rw [hrun]

/-- A run crashes or gives a handle, and nothing is reported. -/
theorem run_ends (A : Allocators) (i : Fin n) (script : Script) (input : List UInt8)
    (host : Host n) :
    (∃ c host', (Host.run A i script input).run host = ⟨.error c, host', []⟩) ∨
      ∃ handle host', (Host.run A i script input).run host = ⟨.ok handle, host', []⟩ := by
  have hevents := events_run A i script input host
  rcases hrun : (Host.run A i script input).run host with ⟨result, host', events⟩
  rw [hrun] at hevents
  obtain rfl : events = [] := hevents
  cases result with
  | error c => exact .inl ⟨c, host', rfl⟩
  | ok handle => exact .inr ⟨handle, host', rfl⟩

/-- The handle that a run gives was not out before, on any engine. -/
theorem not_isLive_of_run (ho : host.Owned) {handle : Nat} (h0 : handle ≠ 0)
    (h : ((Host.run A i script input).run host).result = .ok handle) (j : Fin n) :
    ¬ host.IsLive j handle := by
  rcases run_cases A i script input host with
    ⟨text, hrun⟩ | ⟨failure, hrun⟩ | hrun | ⟨reply, handle', tree, heap, ha, hrun⟩
  · rw [hrun] at h
    exact nomatch h
  · rw [hrun] at h
    exact nomatch h
  · rw [hrun] at h
    exact absurd (Except.ok.inj h).symm h0
  · rw [hrun] at h
    obtain rfl := Except.ok.inj h
    exact ho.not_isLive_new ha j

/-- An engine reports nothing when the handle comes back that it has just given. -/
theorem events_release_of_run {handle : Nat}
    (h : ((Host.run A i script input).run host).result = .ok handle) :
    ((Host.release i handle).run ((Host.run A i script input).run host).state).events = [] := by
  rcases release_cases i handle ((Host.run A i script input).run host).state with
    ⟨-, hrun⟩ | ⟨tree, -, -, hrun⟩ | ⟨h0, hnone, -⟩
  · rw [hrun]
  · rw [hrun]
  · have hlive := (isLive_run A i script input host i h0).mpr (.inr ⟨rfl, h⟩)
    exact absurd hlive (not_isLive_iff.mpr hnone)

/-- **The release of a handle that a run has given** changes the state and does nothing else. -/
theorem release_of_run {handle : Nat} {events : List Event}
    (hrun : (Host.run A i script input).run host = ⟨.ok handle, host', events⟩) :
    (Host.release i handle).run host' =
      ⟨.ok (), ((Host.release i handle).run host').state, []⟩ := by
  have hsilent := events_release_of_run (congrArg Performed.result hrun)
  rw [hrun] at hsilent
  have hresult := result_release i handle host'
  generalize (Host.release i handle).run host' = done at hsilent hresult
  obtain ⟨result, state, reported⟩ := done
  obtain rfl : reported = [] := hsilent
  obtain rfl : result = .ok () := hresult
  rfl

/-- **What the calls of a parse come to**: a run that crashed, or a run and a release. -/
theorem parse_cases (A : Allocators) (host : Host n) (i : Fin n) (script : Script)
    (input : List UInt8) :
    (∃ c host', (Host.run A i script input).run host = ⟨.error c, host', []⟩ ∧
      host.calls A (host.parseCalls A i script input) = ([⟨i, .ran (.error c), []⟩], host')) ∨
    ∃ handle host', (Host.run A i script input).run host = ⟨.ok handle, host', []⟩ ∧
      ((Host.release i handle).run host').events = [] ∧
      host.calls A (host.parseCalls A i script input) =
        ([⟨i, .ran (.ok handle), []⟩, ⟨i, .released handle, []⟩],
          ((Host.release i handle).run host').state) := by
  rcases run_ends A i script input host with ⟨c, host', hrun⟩ | ⟨handle, host', hrun⟩
  · refine .inl ⟨c, host', hrun, ?_⟩
    simp only [parseCalls, hrun, calls, call]
  · have hsilent := congrArg Performed.events (release_of_run hrun)
    refine .inr ⟨handle, host', hrun, hsilent, ?_⟩
    simp only [parseCalls, hrun, calls, call, hsilent]

/-- After a parse the same handles are out as before. -/
theorem isLive_parseCalls (ho : host.Owned) {handle' : Nat} :
    (host.calls A (host.parseCalls A i script input)).2.IsLive j handle' ↔
      host.IsLive j handle' := by
  have hafter := ho.calls A (host.parseCalls A i script input)
  by_cases h0 : handle' = 0
  · subst h0
    exact iff_of_false (fun hlive => hafter.ne_zero hlive rfl) fun hlive => ho.ne_zero hlive rfl
  have hrun' := ho.run A i script input
  rcases parse_cases A host i script input with
    ⟨c, host', hrun, hcalls⟩ | ⟨handle, host', hrun, -, hcalls⟩
  · have hiff := isLive_run A i script input host j h0
    rw [hrun] at hiff
    rw [hcalls, hiff]
    simp
  · have hiff := isLive_run A i script input host j h0
    have hnew : ((Host.run A i script input).run host).result = .ok handle' →
        ¬ host.IsLive i handle' := fun hresult => not_isLive_of_run ho h0 hresult i
    rw [hrun] at hrun' hiff hnew
    rw [hcalls, isLive_release hrun', hiff]
    refine ⟨fun ⟨hout, hother⟩ => ?_, fun hlive => ⟨.inl hlive, fun heq => ?_⟩⟩
    · rcases hout with hlive | ⟨rfl, hok⟩
      · exact hlive
      · exact absurd (congrArg (Prod.mk i) (Except.ok.inj hok)) hother
    · obtain ⟨rfl, rfl⟩ := Prod.mk.inj heq
      exact hnew rfl hlive

/-- A parse is one run. -/
theorem totalRuns_parseCalls :
    (host.calls A (host.parseCalls A i script input)).2.totalRuns = host.totalRuns + 1 := by
  have hruns := totalRuns_run A i script input host
  rcases parse_cases A host i script input with
    ⟨c, host', hrun, hcalls⟩ | ⟨handle, host', hrun, -, hcalls⟩
  · rw [hrun] at hruns
    rw [hcalls]
    exact hruns
  · rw [hrun] at hruns
    rw [hcalls, totalRuns_release]
    exact hruns

/-- The engine reports nothing of a parse. -/
theorem reported_parseCalls :
    (host.calls A (host.parseCalls A i script input)).1.flatMap CallRecord.events = [] := by
  rcases parse_cases A host i script input with
    ⟨c, host', -, hcalls⟩ | ⟨handle, host', -, -, hcalls⟩
  · rw [hcalls]
    rfl
  · rw [hcalls]
    rfl

/-! ## 2. Parses in turn -/

/-- **Calls that are parses in turn**, from a given host on. -/
inductive Parses (A : Allocators) : Host n → List (Call n) → Prop
  | nil (host : Host n) : Parses A host []
  | cons {host : Host n} (i : Fin n) (script : Script) (input : List UInt8) {cs : List (Call n)}
      (rest : Parses A (host.calls A (host.parseCalls A i script input)).2 cs) :
      Parses A host (host.parseCalls A i script input ++ cs)

namespace Parses

variable {cs ds : List (Call n)}

/-- One parse. -/
theorem one (host : Host n) (i : Fin n) (script : Script) (input : List UInt8) :
    Parses A host (host.parseCalls A i script input) := by
  have h : Parses A host (host.parseCalls A i script input ++ []) := cons i script input (.nil _)
  rwa [List.append_nil] at h

theorem append (h : Parses A host cs) (h' : Parses A (host.calls A cs).2 ds) :
    Parses A host (cs ++ ds) := by
  induction h with
  | nil host => exact h'
  | cons i script input rest ih =>
    rw [List.append_assoc]
    refine cons i script input (ih ?_)
    rwa [calls_append] at h'

/-- The same handles are out as before. -/
theorem isLive_iff (h : Parses A host cs) (ho : host.Owned) {handle : Nat} :
    (host.calls A cs).2.IsLive j handle ↔ host.IsLive j handle := by
  induction h with
  | nil host => rfl
  | cons i script input rest ih =>
    rw [calls_append]
    exact (ih (ho.calls A _)).trans (isLive_parseCalls ho)

/-- The runs only grow. -/
theorem totalRuns_le (h : Parses A host cs) :
    host.totalRuns ≤ (host.calls A cs).2.totalRuns := by
  induction h with
  | nil host => exact Nat.le_refl _
  | cons i script input rest ih =>
    rw [totalRuns_parseCalls] at ih
    rw [calls_append]
    exact Nat.le_of_succ_le ih

/-- The engines report nothing. -/
theorem reported_eq_nil (h : Parses A host cs) :
    (host.calls A cs).1.flatMap CallRecord.events = [] := by
  induction h with
  | nil host => rfl
  | cons i script input rest ih =>
    rw [calls_append, List.flatMap_append, reported_parseCalls, ih]
    rfl

end Parses

end Host

/-! ## 3. Actions that are parses -/

/-- Whatever an action makes of the result, it leaves what the calls of a parse leave, and it does
not warn. -/
structure IsParse {α : Type} (A : Allocators) (i : Fin n) (script : Script) (input : List UInt8)
    (x : Action (Host n) α) : Prop where
  state : ∀ host, (x.run host).state = (host.calls A (host.parseCalls A i script input)).2
  warnings : ∀ host, (x.run host).events.filter Event.isWarning = []

/-- Looking at a guard without a warning is a parse, however it ends. -/
theorem Guard.isParse_holding {α : Type} {body : Guard n → Action (Host n) α}
    (hstate : ∀ g host, ((body g).run host).state = host)
    (hwarnings : ∀ g host, ((body g).run host).events.filter Event.isWarning = []) :
    IsParse A i script input (holding A i script input body) := by
  refine ⟨fun host => ?_, fun host => ?_⟩
  · rcases Host.parse_cases A host i script input with
      ⟨c, host', hrun, hcalls⟩ | ⟨handle, host', hrun, -, hcalls⟩
    · rw [holding_of_crash body hrun, hcalls]
    · rw [holding_of_handle body hrun, hcalls, hstate]
  · rcases Host.parse_cases A host i script input with
      ⟨c, host', hrun, -⟩ | ⟨handle, host', hrun, hrelease, -⟩
    · rw [holding_of_crash body hrun]
      rfl
    · rw [holding_of_handle body hrun]
      simp only [hstate, hrelease, List.nil_append, List.append_nil]
      exact hwarnings _ _

/-- No decoding warns. -/
theorem Decoder.decode_warnings (d : Decoder) (m : Memory) (root : Nat) :
    (d.decode m root).events.filter Event.isWarning = [] := by
  refine List.filter_eq_nil_iff.mpr ?_
  intro event hevent
  rw [Event.isWarning, decode_events event hevent]
  decide

/-- What follows a parse may look at its outcome, and may report it, but not warn. -/
theorem IsParse.bind {α β : Type} {x : Action (Host n) α} {f : α → Action (Host n) β}
    (hx : IsParse A i script input x) (hstate : ∀ a host, ((f a).run host).state = host)
    (hwarnings : ∀ a host, ((f a).run host).events.filter Event.isWarning = []) :
    IsParse A i script input (x >>= f) := by
  refine ⟨fun host => ?_, fun host => ?_⟩
  · have hafter := hx.state host
    rcases hrun : x.run host with ⟨result, host', events⟩
    rw [hrun] at hafter
    cases result with
    | error c =>
      rw [Action.run_bind_of_error hrun]
      exact hafter
    | ok a =>
      rw [Action.run_bind_of_ok hrun, hstate]
      exact hafter
  · have hsilent := hx.warnings host
    rcases hrun : x.run host with ⟨result, host', events⟩
    rw [hrun] at hsilent
    cases result with
    | error c =>
      rw [Action.run_bind_of_error hrun]
      exact hsilent
    | ok a =>
      rw [Action.run_bind_of_ok hrun, List.filter_append, hsilent, hwarnings]
      rfl

/-- Reading a result does not warn. -/
theorem Session.readResult_warnings (s : Session n) (g : Guard n) (host : Host n) :
    ((s.readResult g).run host).events.filter Event.isWarning = [] := by
  rw [readResult, Action.look]
  dsimp only
  cases g.root? host.heap.memory with
  | none => rfl
  | some root => exact s.decoder.decode_warnings host.heap.memory root

/-- **The parse of a session is a parse.** -/
theorem Session.isParse_parse (s : Session n) (A : Allocators) (script : Script)
    (input : List UInt8) : IsParse A s.engine script input (s.parse A script input) := by
  have hholding : IsParse A s.engine script input
      (Guard.holding A s.engine script input s.readResult) :=
    Guard.isParse_holding (fun _ _ => rfl) s.readResult_warnings
  refine hholding.bind (fun _ _ => rfl) ?_
  intro outcome host
  cases outcome <;> rfl

/-- **So is a parse without a session.** -/
theorem Host.isParse_parse (A : Allocators) (i : Fin n) (script : Script) (input : List UInt8) :
    IsParse A i script input (Host.parse A i script input) :=
  (Session.isParse_parse (.new i) A script input).bind (fun _ _ => rfl) fun _ _ => rfl

end TokenImage
