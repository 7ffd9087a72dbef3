/-
# Scenarios show their surface

Every state of a host and its clients has a surface (`ClientState.surface`), and as long as there is
memory, whatever clients do shows on it: a step gives the result and reports the events that
`Surface.perform` says, and leaves a state with the surface that it says (`Step.sees_perform`).

What makes this so is that every guard that is kept stands for a reply (`ClientState.Showing`), and so
shows what the reply shows, and that of every handle it is known whether its engine has it out.

* `Step.sees_glance` is the step of all parses, `Step.sees_acquireGuard`, `Step.sees_dropGuard`,
  `Step.sees_runRaw` and `Step.sees_releaseRaw` are those of the steps that keep something;
* `Scenario.surface_reportSteps` is the induction over a scenario, and `Scenario.run_eq_surface` what
  follows for the whole report.
-/
import TokenImage.Proofs.Engine.EndToEnd
import TokenImage.Proofs.Scenario.Surface

namespace TokenImage

variable {n : Nat} {A : Allocators} {α β : Type}

/-! ## 1. The surface of a state -/

/-- What shows of a guard in a memory. -/
def Guard.sight (g : Guard n) (m : Memory) : GuardSight n :=
  ⟨g.engine, g.view m⟩

/-- What shows of a raw handle. -/
def RawHandle.sight (h : RawHandle n) : HandleSight n :=
  ⟨h.engine, h.handle ≠ 0, h.releasedAt⟩

/-- **What shows of a state.** -/
def ClientState.surface (s : ClientState n) : Surface n where
  counters := Scenario.allCounters s.host
  calls := s.calls
  guards := s.guards.map fun entry => (entry.1, entry.2.sight s.host.heap.memory)
  handles := s.handles.map fun entry => (entry.1, entry.2.sight)

theorem ClientState.surface_guards (s : ClientState n) :
    s.surface.guards =
      s.guards.map fun entry => (entry.1, entry.2.sight s.host.heap.memory) := rfl

/-- What shows of what was done. -/
def Performed.surface (done : Performed (ClientState n) α) : Performed (Surface n) α :=
  ⟨done.result, done.state.surface, done.events⟩

section Named

variable {l : List (String × α)} {name : String}

/-- What a name finds among entries that are put in other terms. -/
theorem lookup_map_entries (f : α → β) (l : List (String × α)) (name : String) :
    (l.map fun entry => (entry.1, f entry.2)).lookup name = (l.lookup name).map f := by
  induction l with
  | nil => rfl
  | cons entry l ih =>
    obtain ⟨other, a⟩ := entry
    rw [List.map_cons, List.lookup_cons, List.lookup_cons]
    cases name == other with
    | true => rfl
    | false => exact ih

/-- Striking out a name can wait until entries are put in other terms. -/
theorem filter_map_entries (f : α → β) (l : List (String × α)) (name : String) :
    ((l.map fun entry => (entry.1, f entry.2)).filter fun entry => entry.1 ≠ name) =
      (l.filter fun entry => entry.1 ≠ name).map fun entry => (entry.1, f entry.2) := by
  rw [List.filter_map]
  rfl

/-- Where no name occurs twice, a name finds its entry. -/
theorem lookup_of_mem (hnodup : (l.map Prod.fst).Nodup) {entry : String × α} (hmem : entry ∈ l) :
    l.lookup entry.1 = some entry.2 := by
  cases hfound : l.lookup entry.1 with
  | none => exact absurd (List.mem_map_of_mem hmem) (not_mem_names_of_lookup hfound)
  | some a =>
    have hmem' := (perm_cons_filter_of_lookup hnodup hfound).mem_iff.mp hmem
    rcases List.mem_cons.mp hmem' with heq | hother
    · rw [heq]
    · exact absurd rfl (of_decide_eq_true (List.mem_filter.mp hother).2)

end Named

/-! ## 2. Counters -/

namespace Scenario

variable {host host' : Host n} {i : Fin n} {f : Counters → Counters}

theorem getElem_allCounters (host : Host n) {k : Nat} (hk : k < (allCounters host).length)
    (hlt : k < n) : (allCounters host)[k] = (host.engine ⟨k, hlt⟩).counters := by
  simp [allCounters, Host.engine]

/-- Where only one engine has changed, so have only its counters. -/
theorem allCounters_eq_modify (hi : (host'.engine i).counters = f (host.engine i).counters)
    (hothers : ∀ j, j ≠ i → host'.engine j = host.engine j) :
    allCounters host' = (allCounters host).modify i f := by
  refine List.ext_getElem (by simp [allCounters]) fun k hk hk' => ?_
  have hlt : k < n := by simpa [allCounters] using hk
  rw [List.getElem_modify, getElem_allCounters host' hk hlt,
    getElem_allCounters host (by simpa [allCounters] using hlt) hlt]
  split
  · rename_i heq
    obtain rfl : i = ⟨k, hlt⟩ := Fin.ext heq
    exact hi
  · rename_i hne
    rw [hothers _ fun heq => hne (congrArg Fin.val heq).symm]

theorem sum_map_runs (engines : List Engine) :
    ((engines.map Engine.counters).map Counters.runs).sum = Host.runsOf engines := by
  induction engines with
  | nil => rfl
  | cons e engines ih =>
    rw [List.map_cons, List.map_cons, List.sum_cons, ih]
    rfl

end Scenario

/-- The runs of all engines together show in their counters. -/
theorem ClientState.totalRuns_surface (s : ClientState n) :
    s.surface.totalRuns = s.host.totalRuns := by
  rw [Host.totalRuns_eq]
  exact Scenario.sum_map_runs s.host.engines.toList

/-- A raw handle is stale if it looks so. -/
theorem RawHandle.isStale_sight (raw : RawHandle n) (s : ClientState n) :
    Surface.isStale raw.sight s.surface = Step.isStale raw s.host := by
  rw [Surface.isStale, Step.isStale, ClientState.totalRuns_surface]
  rfl

/-! ## 3. Guards that stand for replies -/

/-- The handle that a run gives stands for a reply. -/
theorem Host.exists_shows_of_result {host : Host n} {i : Fin n} {script : Script}
    {input : List UInt8} {handle : Nat}
    (h : ((Host.run A i script input).run host).result = .ok handle) :
    ∃ reply, ((Host.run A i script input).run host).state.Shows i handle reply input.length := by
  rcases run_ends A i script input host with ⟨c, host', hrun⟩ | ⟨handle', host', hrun⟩
  · rw [hrun] at h
    exact nomatch h
  · rw [hrun] at h ⊢
    obtain rfl := Except.ok.inj h
    obtain ⟨reply, -, hshows⟩ := exists_shows_of_run hrun
    exact ⟨reply, hshows⟩

namespace ClientState

variable {s : ClientState n} {cs : List (Call n)}

/-- **A state whose guards stand for replies**, and that clients can reach. -/
structure Showing (s : ClientState n) : Prop where
  sound : s.Sound
  guards : ∀ entry ∈ s.guards, ∃ reply inputLength,
    s.host.Shows entry.2.engine entry.2.handle reply inputLength

theorem showing_start (n grammars : Nat) : (ClientState.start n grammars).Showing :=
  ⟨Scenario.sound_start n grammars, fun _ hentry => absurd hentry List.not_mem_nil⟩

namespace Showing

variable {done : Performed (ClientState n) α} {entry : String × Guard n}

/-- The notes of clients stay true, and live blocks do not overlap. -/
theorem sound_effect (h : s.Showing) (he : Effect A s cs done) : done.state.Sound := by
  refine ⟨?_, ?_⟩
  · rw [he.host]
    exact h.sound.faithful.noted he.noted
  · rw [he.host]
    exact h.sound.host.calls A cs

/-- A guard that is kept goes on standing for its reply. -/
theorem shows_effect (h : s.Showing) (he : Effect A s cs done)
    (hkept : entry ∈ done.state.guards) {reply : Reply} {inputLength : Nat}
    (hshows : s.host.Shows entry.2.engine entry.2.handle reply inputLength) :
    done.state.host.Shows entry.2.engine entry.2.handle reply inputLength := by
  have hfaithful := (h.sound_effect he).faithful
  have hlive := hfaithful.isLive_of_guard (lookup_of_mem hfaithful.guardNames hkept)
  rw [he.host] at hlive ⊢
  exact hshows.noted h.sound.host he.noted hlive

/-- **Whatever clients do, their guards go on standing for replies.** -/
theorem effect (h : s.Showing) (he : Effect A s cs done) : done.state.Showing := by
  refine ⟨h.sound_effect he, fun entry hkept => ?_⟩
  have hold : entry ∈ s.guards → ∃ reply inputLength,
      done.state.host.Shows entry.2.engine entry.2.handle reply inputLength := by
    intro hmem
    obtain ⟨reply, inputLength, hshows⟩ := h.guards entry hmem
    exact ⟨reply, inputLength, h.shows_effect he hkept hshows⟩
  have hnoted := he.noted
  have hhost := he.host
  generalize done.state.guards = guards at hnoted hkept
  generalize done.state.handles = handles at hnoted
  cases hnoted with
  | parses | handed | released | offered | releasedNull => exact hold hkept
  | dropped => exact hold (List.mem_of_mem_filter hkept)
  | acquired hfree hrun =>
    rcases List.mem_cons.mp hkept with rfl | hkept
    · obtain ⟨reply, hshows⟩ := Host.exists_shows_of_result hrun
      rw [hhost]
      exact ⟨reply, _, hshows⟩
    · exact hold hkept

/-- Guards that are kept show the same as before. -/
theorem views_effect (h : s.Showing) (he : Effect A s cs done) :
    ∀ entry ∈ s.guards, entry ∈ done.state.guards →
      entry.2.view done.state.host.heap.memory = entry.2.view s.host.heap.memory := by
  intro entry hmem hkept
  obtain ⟨reply, inputLength, hshows⟩ := h.guards entry hmem
  exact (h.shows_effect he hkept hshows).view.trans hshows.view.symm

end Showing

end ClientState

/-! ## 4. Runs -/

/-- **What is done shows**, if there is memory for its calls. -/
def Sees (A : Allocators) (s : ClientState n) (cs : List (Call n))
    (done : Performed (ClientState n) α) (seen : Performed (Surface n) α) : Prop :=
  s.host.HasRoomFor A cs → done.surface = seen

namespace ClientState

variable {s : ClientState n} {i : Fin n} {k : Nat} {f : Counters → Counters} {host' : Host n}

/-- Guards that show the same look the same. -/
theorem map_sight_congr {guards : List (String × Guard n)} {m m' : Memory}
    (h : ∀ entry ∈ guards, entry.2.view m' = entry.2.view m) :
    (guards.map fun entry => (entry.1, entry.2.sight m')) =
      guards.map fun entry => (entry.1, entry.2.sight m) := by
  refine List.map_congr_left fun entry hentry => ?_
  rw [Guard.sight, Guard.sight, h entry hentry]

/-- Where clients keep what they kept, and it shows the same, only counters show a difference. -/
theorem surface_withHost (hi : (host'.engine i).counters = f (s.host.engine i).counters)
    (hothers : ∀ j, j ≠ i → host'.engine j = s.host.engine j)
    (hviews : ∀ entry ∈ s.guards,
      entry.2.view host'.heap.memory = entry.2.view s.host.heap.memory) :
    ({ s with host := host' } : ClientState n).surface = s.surface.count i f := by
  have hcounters := Scenario.allCounters_eq_modify hi hothers
  have hguards := map_sight_congr hviews
  simp only [surface, Surface.count, hcounters, hguards]

/-- A change of one engine that touches no heap shows in its counters alone. -/
theorem surface_withEngine {e : Engine → Engine} (he : ∀ x, (e x).counters = f x.counters) :
    ({ s with host := s.host.withEngine i e } : ClientState n).surface = s.surface.count i f := by
  refine surface_withHost ?_ (fun j hj => Host.engine_withEngine_of_ne _ (Ne.symm hj) e)
    fun _ _ => rfl
  rw [Host.engine_withEngine_self, he]

/-- What is struck out shows no longer. -/
theorem surface_forgetGuard (name : String) (s : ClientState n) :
    (forgetGuard name s).surface = s.surface.forgetGuard name :=
  congrArg (fun guards => ({ s.surface with guards } : Surface n))
    (filter_map_entries (fun guard => guard.sight s.host.heap.memory) s.guards name).symm

/-- What is noted of a raw handle shows. -/
theorem surface_keepHandle (name : String) (raw : RawHandle n) (s : ClientState n) :
    (keepHandle name raw s).surface = s.surface.keepHandle name raw.sight :=
  congrArg (fun handles => ({ s.surface with handles := (name, raw.sight) :: handles } : Surface n))
    (filter_map_entries RawHandle.sight s.handles name).symm

end ClientState

namespace Step

open ClientState

variable {s : ClientState n} {i : Fin n} {k : Nat} {g : Grammar} {input : List UInt8}
  {name : String} {host' : Host n}

/-- A run that comes to nothing shows as a run. -/
theorem surface_countRun (s : ClientState n) (i : Fin n) (k : Nat) :
    ({ countCall k s with host := s.host.withEngine i Engine.countRun } : ClientState n).surface =
      (s.surface.countCall k).count i (·.ran false) :=
  surface_withEngine (s := countCall k s) fun _ => rfl

/-- **A run whose result is looked at and released** shows as that, if what is read of the result is
read of the node of a bare reply. -/
theorem sees_glance (hs : s.Showing) {x : Script → Action (Host n) α}
    {f : Node → List Event × Except Crash α}
    (hcrash : ∀ {script c mid}, (Host.run A i script input).run s.host = ⟨.error c, mid, []⟩ →
      (x script).run s.host = ⟨.error c, mid, []⟩)
    (hread : ∀ {script handle mid reply},
      (Host.run A i script input).run s.host = ⟨.ok handle, mid, []⟩ →
      mid.Shows i handle reply input.length →
      (x script).run s.host =
        ⟨(f reply.node.bare).2, ((Host.release i handle).run mid).state, (f reply.node.bare).1⟩) :
    Sees A s (s.host.parseCalls A i (s.script k g) input)
      ((nextScript k g >>= fun script => onHost (x script)).run s)
      ((Surface.glance i k g input f).run s.surface) := by
  intro hroom
  have hrunRoom : s.host.HasRoom A (.run i (s.script k g) input) := hroom.1
  have hhost : (countCall k s).host = s.host := rfl
  have hends : s.surface.ends k g input = (s.script k g input).ends := rfl
  rw [run_nextScript_bind, run_onHost, hhost, Surface.glance]
  cases hanswer : (s.script k g input).ends with
  | error c =>
    rw [hcrash (Host.run_of_ends hrunRoom hanswer)]
    simp only [hends, hanswer, Except.map]
    exact congrArg (fun v => (⟨.error c, v, []⟩ : Performed (Surface n) α)) (surface_countRun s i k)
  | ok reply =>
    obtain ⟨raw, handle, mid, rfl, hrun, hshows⟩ := Host.exists_run_of_ends hrunRoom hanswer
    have hrestored := Host.restored_of_run hs.sound.host hrun
    rw [hread hrun hshows]
    simp only [hends, hanswer, Except.map, Reply.node_bare]
    refine congrArg (fun v => (⟨_, v, _⟩ : Performed (Surface n) α)) ?_
    refine surface_withHost (s := countCall k s) hrestored.counters hrestored.others ?_
    intro entry hentry
    obtain ⟨kept, inputLength, hbefore⟩ := hs.guards entry hentry
    exact (hbefore.keep fun tree hholds => hrestored.keeps hholds).view.trans hbefore.view.symm

/-- The same, where the outcome is put in other terms. -/
theorem sees_bind_pure {cs : List (Call n)} {x : Script → Action (Host n) α}
    {y : Action (Surface n) α}
    (h : Sees A s cs ((nextScript k g >>= fun script => onHost (x script)).run s) (y.run s.surface))
    (f : α → StepResult) :
    Sees A s cs
      ((nextScript k g >>= fun script => onHost (x script) >>= fun a => pure (f a)).run s)
      ((y >>= fun a => pure (f a)).run s.surface) := by
  intro hroom
  have hseen := h hroom
  rw [run_nextScript_bind] at hseen
  rw [run_nextScript_bind, Action.run_bind_pure, Action.run_bind_pure, ← hseen]
  rfl

end Step

/-- A handle is null if its reply has no result. -/
theorem Host.Shows.hasResult_eq {host : Host n} {i : Fin n} {handle inputLength : Nat}
    {reply : Reply} (h : host.Shows i handle reply inputLength) :
    reply.hasResult = decide (handle ≠ 0) := by
  cases h with
  | null => rfl
  | result hreply _ hat => rw [hreply, decide_eq_true hat.handle_ne_zero]

/-- What a session reads of a result, it reads of its node. -/
theorem Session.outcomeAt_of_shows {s : Session n} {host : Host n} {handle inputLength : Nat}
    {reply : Reply} (h : host.Shows s.engine handle reply inputLength) :
    s.outcomeAt host.heap.memory handle = s.outcomeOf reply.node.bare := by
  rw [outcomeAt, outcomeOf, Node.isNull_bare, Decoder.readNode_bare]
  rcases h.root?_cases with ⟨hnull, hroot⟩ | ⟨hnull, root, blocks, hroot, hlaid⟩
  · rw [hroot, hnull]
    rfl
  · rw [hroot, hnull]
    simp only [hlaid.decode]
    rfl

namespace Step

open ClientState

variable {s : ClientState n} {i : Fin n} {k : Nat} {g : Grammar} {input : List UInt8}
  {name : String} {host' : Host n}

/-- **A parse of a session** shows as one. -/
theorem sees_parse (hs : s.Showing) (session : Session n) :
    Sees A s (s.host.parseCalls A session.engine (s.script k g) input)
      ((nextScript k g >>= fun script => onHost (session.parse A script input)).run s)
      ((Surface.parse session k g input).run s.surface) := by
  refine sees_glance hs (fun hrun => Session.parse_of_crash hrun) fun hrun hshows => ?_
  rw [Session.parse_of_run hrun, Session.outcomeAt_of_shows hshows]

/-- A guard that is lost to a panic shows as a parse. -/
theorem sees_acquireAndPanic (hs : s.Showing) :
    Sees A s (s.host.parseCalls A i (s.script k g) input)
      ((nextScript k g >>= fun script => onHost (acquireAndPanic A i script input)).run s)
      ((Surface.glance i k g input fun node =>
        ([], .error (.panic (abortText !node.isNull)))).run s.surface) := by
  refine sees_glance hs (fun hrun => Guard.holding_of_crash _ hrun) ?_
  intro script handle mid reply hrun hshows
  have hsilent := congrArg Performed.events (Host.release_of_run hrun)
  have hroot := hshows.isSome_root?
  rw [acquireAndPanic, Guard.holding_of_handle _ hrun]
  simp only [Action.run_current_bind, Action.crash, hsilent, hroot, Node.isNull_bare,
    List.append_nil]

/-- A parse without a session shows as one of a session without a limit. -/
theorem sees_parseAlone (hs : s.Showing) :
    Sees A s (s.host.parseCalls A i (s.script k g) input)
      ((nextScript k g >>= fun script => onHost (Host.parse A i script input) >>= fun token =>
        (pure (.parsed token) : Action (ClientState n) StepResult)).run s)
      ((Surface.parse (.new i) k g input >>= fun outcome =>
        (pure (.parsed outcome.toOption) : Action (Surface n) StepResult)).run s.surface) := by
  intro hroom
  have hseen := sees_parse hs (.new i) hroom
  rw [run_nextScript_bind, run_onHost] at hseen
  rw [run_nextScript_bind, Action.run_bind_pure, run_onHost, Host.parse, Action.run_bind_pure,
    Action.run_bind_pure, ← hseen]
  cases (((Session.new i).parse A (s.script k g) input).run (countCall k s).host).result with
  | error c => rfl
  | ok outcome => rfl

/-! ## 5. Workers -/

/-- **What is done in turn shows in turn.** -/
theorem surface_bind {x : Action (ClientState n) α} {y : Action (Surface n) α} {v : Surface n}
    {f : α → Action (ClientState n) β} {h : α → Action (Surface n) β}
    (hx : (x.run s).surface = y.run v)
    (hf : ∀ a t events, x.run s = ⟨.ok a, t, events⟩ →
      ((f a).run t).surface = (h a).run t.surface) :
    ((x >>= f).run s).surface = (y >>= h).run v := by
  rcases hrun : x.run s with ⟨result, t, events⟩
  rw [hrun] at hx
  cases result with
  | error c =>
    rw [Action.run_bind_of_error hrun, Action.run_bind_of_error hx.symm]
    rfl
  | ok a =>
    rw [Action.run_bind_of_ok hrun, Action.run_bind_of_ok hx.symm, ← hf a t events hrun]
    rfl

/-- What is attempted shows as an attempt. -/
theorem surface_attempt {x : Action (ClientState n) α} {y : Action (Surface n) α} {v : Surface n}
    (hx : (x.run s).surface = y.run v) : (x.attempt.run s).surface = y.attempt.run v :=
  congrArg (fun done : Performed (Surface n) α =>
    (⟨.ok done.result, done.state, done.events⟩ : Performed (Surface n) (Except Crash α))) hx

/-- The first parse of a worker shows. -/
theorem surface_silently_parse (hs : s.Showing) (session : Session n)
    (hroom : s.host.HasRoomFor A (s.host.parseCalls A session.engine (s.script k g) input)) :
    ((onHost (session.parse A (s.script k g) input)).silently.run (countCall k s)).surface =
      (Surface.parse session k g input).silently.run s.surface := by
  have hseen := sees_parse hs session hroom
  rw [run_nextScript_bind] at hseen
  exact congrArg (fun done => (⟨done.result, done.state, []⟩ :
    Performed (Surface n) (Except Error Token))) hseen

/-- **A worker's parses show.** -/
theorem sees_countMatches (hs : s.Showing) (session : Session n) (inputs : List (List UInt8)) :
    Sees A s (workerCalls A session k g s inputs) ((countMatches A session k g inputs).run s)
      ((Surface.countMatches session k g inputs).run s.surface) := by
  induction inputs generalizing s with
  | nil => exact fun _ => rfl
  | cons input inputs ih =>
    intro hroom
    have hfirst := run_silently_parse (A := A) (s := s) (k := k) (g := g) session input
    rw [countMatches, run_nextScript_bind, Surface.countMatches]
    rcases Host.run_ends A session.engine (s.script k g) input s.host with
      ⟨c, host', hrun⟩ | ⟨handle, host', hrun⟩
    · simp only [workerCalls, hrun] at hroom
      refine surface_bind (surface_silently_parse hs session hroom) fun a t events hok => ?_
      rw [Session.parse_of_crash hrun] at hfirst
      cases hfirst.symm.trans hok
    · simp only [workerCalls, hrun, Host.hasRoomFor_append] at hroom
      refine surface_bind (surface_silently_parse hs session hroom.1) fun a t events hok => ?_
      obtain ⟨-, rfl, -⟩ := Performed.mk.inj (hfirst.symm.trans hok)
      have hafter := hs.effect (onlyParses_afterCalls (A := A) (s := s) (k := k) session.engine
        (s.script k g) input (.ok ())).effect
      exact surface_bind (ih hafter hroom.2) fun _ _ _ _ => rfl

/-- **The parses of several workers show**, and so does that one of them was lost. -/
theorem sees_countCrewMatches (hs : s.Showing) (session : Session n)
    (crew : List (List (List UInt8))) :
    Sees A s (crewCalls A session k g s crew) ((countCrewMatches A session k g crew).run s)
      ((Surface.countCrewMatches session k g crew).run s.surface) := by
  induction crew generalizing s with
  | nil => exact fun _ => rfl
  | cons inputs crew ih =>
    intro hroom
    rw [crewCalls, Host.hasRoomFor_append] at hroom
    obtain ⟨hown, -⟩ := onlyParses_countMatches (A := A) (s := s) (k := k) (g := g) session inputs
    rw [← hown.host] at hroom
    rw [countCrewMatches, Surface.countCrewMatches]
    refine surface_bind (surface_attempt (sees_countMatches hs session inputs hroom.1)) ?_
    intro own t events hrun
    obtain ⟨-, rfl, -⟩ := Performed.mk.inj hrun
    refine surface_bind (surface_attempt (ih (hs.effect hown.effect) hroom.2)) ?_
    intro others t events hrun
    cases own with
    | error c => rfl
    | ok ownCount =>
      cases others with
      | error c => rfl
      | ok otherCount => rfl

/-! ## 6. Guards -/

/-- **A run that is kept shows how it ends**: in a crash, or in a handle that stands for a reply. -/
theorem run_ends_surface (hroom : s.host.HasRoom A (.run i (s.script k g) input)) :
    (∃ c mid, (Host.run A i (s.script k g) input).run s.host = ⟨.error c, mid, []⟩ ∧
      (Surface.run i k g input).run s.surface =
        ⟨.error c, ({ countCall k s with host := mid } : ClientState n).surface, []⟩) ∨
    ∃ raw handle mid, (Host.run A i (s.script k g) input).run s.host = ⟨.ok handle, mid, []⟩ ∧
      mid.Shows i handle raw input.length ∧
      (Surface.run i k g input).run s.surface =
        ⟨.ok raw.bare, (s.surface.countCall k).count i (·.ran raw.hasResult), []⟩ := by
  have hends : s.surface.ends k g input = (s.script k g input).ends := rfl
  cases hanswer : (s.script k g input).ends with
  | error c =>
    refine .inl ⟨c, _, Host.run_of_ends hroom hanswer, ?_⟩
    simp only [Surface.run, hends, hanswer]
    exact congrArg (fun v => (⟨.error c, v, []⟩ : Performed (Surface n) Reply))
      (surface_countRun s i k).symm
  | ok reply =>
    obtain ⟨raw, handle, mid, rfl, hrun, hshows⟩ := Host.exists_run_of_ends hroom hanswer
    refine .inr ⟨raw, handle, mid, hrun, hshows, ?_⟩
    simp only [Surface.run, hends, hanswer, Reply.hasResult_bare]

/-- A run that gives a handle shows as a run, if nothing that was kept looks otherwise. -/
theorem surface_ran (hs : s.Showing) {raw : Reply} {handle : Nat}
    (hrun : (Host.run A i (s.script k g) input).run s.host = ⟨.ok handle, host', []⟩)
    (hshows : host'.Shows i handle raw input.length)
    (hviews : ∀ entry ∈ s.guards,
      entry.2.view host'.heap.memory = entry.2.view s.host.heap.memory) :
    ({ countCall k s with host := host' } : ClientState n).surface =
      (s.surface.countCall k).count i (·.ran raw.hasResult) := by
  have hothers : ∀ j, j ≠ i → host'.engine j = s.host.engine j := by
    intro j hj
    have hother : ((Host.run A i (s.script k g) input).run s.host).state.engine j =
        s.host.engine j := Host.engines_run_of_ne (Ne.symm hj) (s.script k g) input
    rwa [hrun] at hother
  refine surface_withHost (s := countCall k s) ?_ hothers hviews
  rw [Host.counters_run hs.sound.host.owned hrun, hshows.hasResult_eq]
  by_cases h0 : handle = 0
  · subst h0
    rfl
  · simp only [h0, ne_eq, not_false_eq_true, decide_true, if_false]
    rfl

/-- **A new guard shows.** -/
theorem sees_acquireGuard (hs : s.Showing) (hfree : s.guards.lookup name = none) :
    Sees A s [.run i (s.script k g) input] ((acquireGuard A name i k g input).run s)
      ((Surface.acquire name i k g input).run s.surface) := by
  intro hroom
  have heffect : Effect A s [.run i (s.script k g) input]
      ((acquireGuard A name i k g input).run s) := effect_acquireGuard hfree
  rcases run_ends_surface hroom.1 with ⟨c, mid, hrun, hseen⟩ |
    ⟨raw, handle, mid, hrun, hshows, hseen⟩
  · rw [run_acquireGuard_of_crash hrun, Surface.acquire, Action.run_bind_of_error hseen]
    rfl
  · rw [run_acquireGuard_of_handle hrun] at heffect ⊢
    have hviews := hs.views_effect heffect
    have hnext := surface_ran hs hrun hshows fun entry hentry =>
      hviews entry hentry (List.mem_cons_of_mem _ hentry)
    rw [Surface.acquire, Action.run_bind_of_ok hseen, Reply.view_bare, ← hnext, ← hshows.view]
    rfl

/-- A look at a guard shows. -/
theorem surface_inspectGuard (guard : Guard n) (limit : Option UInt64) :
    ((inspectGuard guard limit).run s).surface =
      (Surface.inspect (guard.sight s.host.heap.memory) limit).run s.surface := by
  have hfacts : (guardFacts guard).run s = ⟨.ok (guard.view s.host.heap.memory).facts, s, []⟩ := rfl
  rw [inspectGuard, Action.run_bind_of_ok hfacts, Action.run_bind_pure]
  rfl

end Step

/-- **What an engine has out, and what is null, it takes back in silence.** -/
theorem Host.release_of_owned {host : Host n} {i : Fin n} {handle : Nat}
    (hlive : handle ≠ 0 → host.IsLive i handle) :
    ∃ host', (Host.release i handle).run host = ⟨.ok (), host', []⟩ ∧
      (host'.engine i).counters = (host.engine i).counters.returned (handle ≠ 0) ∧
      ∀ j, j ≠ i → host'.engine j = host.engine j := by
  by_cases h0 : handle = 0
  · subst h0
    refine ⟨_, release_zero i host, ?_, fun j hj => engine_withEngine_of_ne _ (Ne.symm hj) _⟩
    rw [engine_withEngine_self]
    rfl
  · obtain ⟨tree, hholds⟩ := isLive_iff.mp (hlive h0)
    have hcounters := counters_release_of_live h0 (hlive h0)
    have hothers : ∀ j, j ≠ i →
        ((Host.release i handle).run host).state.engine j = host.engine j :=
      fun j hj => engines_release_of_ne (Ne.symm hj) handle
    rw [release_of_live h0 hholds] at hcounters hothers
    refine ⟨_, release_of_live h0 hholds, hcounters.trans ?_, hothers⟩
    rw [Counters.returned, if_pos (decide_eq_true h0)]
    rfl

namespace Step

open ClientState

variable {s : ClientState n} {i : Fin n} {k : Nat} {g : Grammar} {input : List UInt8}
  {name : String} {host' : Host n}

/-- **The end of a guard shows.** -/
theorem surface_dropGuard (hs : s.Showing) {guard : Guard n}
    (hname : s.guards.lookup name = some guard) :
    ((dropGuard name guard).run s).surface =
      (Surface.drop name (guard.sight s.host.heap.memory)).run s.surface := by
  have hviews := hs.views_effect (effect_dropGuard (A := .ascending) hname)
  obtain ⟨host', hrelease, hcounters, hothers⟩ :=
    Host.release_of_owned (hs.sound.faithful.isLive_of_guard hname)
  have hdone : (dropGuard name guard).run s =
      ⟨.ok .done, forgetGuard name { s with host := host' }, []⟩ := by
    rw [dropGuard, Guard.drop, Action.run_bind_of_ok (run_onHost_release _ _), hrelease]
    rfl
  rw [hdone] at hviews ⊢
  have hnext := surface_withHost (s := forgetGuard name s) (f := (·.returned (guard.handle ≠ 0)))
    hcounters hothers fun entry hentry => hviews entry (List.mem_of_mem_filter hentry) hentry
  have hstate : (forgetGuard name { s with host := host' }).surface =
      Surface.forgetGuard name (s.surface.count guard.engine (·.returned (guard.handle ≠ 0))) :=
    hnext.trans (congrArg (Surface.count guard.engine _) (surface_forgetGuard name s))
  have hnull : (!(guard.sight s.host.heap.memory).view.facts.isNull) =
      decide (guard.handle ≠ 0) := by
    simp [Guard.sight, Guard.view, Guard.isNull, beq_eq_decide]
  rw [Performed.surface, hstate, ← hnull]
  rfl

/-! ## 7. Raw handles -/

end Step

/-- A raw handle of a bare reply shows what one of the reply shows. -/
theorem Reply.handleView_bare (reply : Reply) (inputLength : Nat) :
    reply.bare.handleView inputLength = reply.handleView inputLength := by
  rw [handleView, handleView, node_bare, Node.isNull_bare, Node.reading_bare]

namespace Step

open ClientState

variable {s : ClientState n} {i : Fin n} {k : Nat} {g : Grammar} {input : List UInt8}
  {name : String} {host' : Host n}

/-- A run that gives a handle gives what a raw handle shows of its reply. -/
theorem run_runRaw_of_shows (name : String) {raw : Reply} {handle : Nat}
    (hrun : (Host.run A i (s.script k g) input).run s.host = ⟨.ok handle, host', []⟩)
    (hshows : host'.Shows i handle raw input.length) :
    (runRaw A name i k g input).run s =
      ⟨.ok (if raw.hasResult then .handed (raw.handleView input.length).2 else .handedNull),
        keepHandle name ⟨i, handle, none⟩ { countCall k s with host := host' },
        if raw.hasResult then (raw.handleView input.length).1 else []⟩ := by
  rw [hshows.hasResult_eq]
  have hends := run_runRaw_of_handle hrun (rfl : keepHandle name ⟨i, handle, none⟩ _ = _)
  rcases hends with ⟨rfl, hdone⟩ | ⟨h0, facts, events, hfacts, hdone⟩
  · exact hdone
  · have hsight := hfacts.symm.trans (handleFacts_of_shows hshows h0)
    obtain ⟨hsame, -, hevents⟩ := Performed.mk.inj hsight
    rw [hdone, if_pos (decide_eq_true h0), if_pos (decide_eq_true h0), Except.ok.inj hsame, hevents]

/-- **A new raw handle shows.** -/
theorem sees_runRaw (hs : s.Showing) (hfree : s.handles.lookup name = none) :
    Sees A s [.run i (s.script k g) input] ((runRaw A name i k g input).run s)
      ((Surface.runRaw name i k g input).run s.surface) := by
  intro hroom
  have heffect : Effect A s [.run i (s.script k g) input]
      ((runRaw A name i k g input).run s) := effect_runRaw hfree
  rcases run_ends_surface hroom.1 with ⟨c, mid, hrun, hseen⟩ |
    ⟨raw, handle, mid, hrun, hshows, hseen⟩
  · rw [run_runRaw_of_crash hrun, Surface.runRaw, Action.run_bind_of_error hseen]
    rfl
  · have hviews := hs.views_effect heffect
    have hdone := run_runRaw_of_shows name hrun hshows
    rw [hdone] at hviews
    have hnext := surface_ran hs hrun hshows fun entry hentry => hviews entry hentry hentry
    have hstate := surface_keepHandle name ⟨i, handle, none⟩ { countCall k s with host := mid }
    rw [hnext] at hstate
    rw [hdone, Performed.surface, hstate, RawHandle.sight, ← hshows.hasResult_eq, Surface.runRaw,
      Action.run_bind_of_ok hseen, Reply.hasResult_bare, Reply.handleView_bare]
    cases raw.hasResult with
    | false => rfl
    | true => rfl

/-- What comes of a release of a raw handle that is not stale. -/
theorem run_releaseRaw (raw : RawHandle n) (hfresh : isStale raw s.host = false) {host' : Host n}
    {events : List Event}
    (hrelease : (Host.release i raw.handle).run s.host = ⟨.ok (), host', events⟩) :
    (releaseRaw name raw i).run s =
      ⟨.ok .done, (if i = raw.engine then noteRelease name raw else id) { s with host := host' },
        events⟩ := by
  rw [releaseRaw, Action.run_current_bind, hfresh, if_neg Bool.false_ne_true,
    Action.run_bind_of_ok (run_onHost_release _ _), hrelease]
  exact congrArg (Performed.mk _ _) (List.append_nil _)

/-- A release of a raw handle leaves what guards show alone. -/
theorem views_release (hs : s.Showing) {raw : RawHandle n}
    (hname : s.handles.lookup name = some raw) (hfresh : isStale raw s.host = false)
    {host' : Host n} {events : List Event}
    (hrelease : (Host.release i raw.handle).run s.host = ⟨.ok (), host', events⟩) :
    ∀ entry ∈ s.guards, entry.2.view host'.heap.memory = entry.2.view s.host.heap.memory := by
  have hviews := hs.views_effect (effect_releaseRaw (A := .ascending) (i := i) hname)
  rw [run_releaseRaw raw hfresh hrelease] at hviews
  intro entry hentry
  by_cases hi : i = raw.engine
  · rw [if_pos hi] at hviews
    exact hviews entry hentry hentry
  · rw [if_neg hi] at hviews
    exact hviews entry hentry hentry

/-- **What an engine makes of a raw handle shows.**  It takes the handle back if it has it out, and
that is so if it is the owner and was not asked before. -/
theorem surface_offer (hs : s.Showing) {raw : RawHandle n}
    (hname : s.handles.lookup name = some raw) (hfresh : isStale raw s.host = false) :
    ∃ host' events, (Host.release i raw.handle).run s.host = ⟨.ok (), host', events⟩ ∧
      (Surface.offer raw.sight i).run s.surface =
        ⟨.ok (), ({ s with host := host' } : ClientState n).surface, events⟩ := by
  have hfaithful := hs.sound.faithful
  by_cases hown : raw.handle ≠ 0 → i = raw.engine ∧ raw.releasedAt = none
  · have hlive : raw.handle ≠ 0 → s.host.IsLive i raw.handle := by
      intro h0
      obtain ⟨rfl, hopen⟩ := hown h0
      exact hfaithful.isLive_of_open hname hopen h0
    obtain ⟨host', hrelease, hcounters, hothers⟩ := Host.release_of_owned hlive
    have hnext := surface_withHost (f := (·.returned (raw.handle ≠ 0))) hcounters hothers
      (views_release hs hname hfresh hrelease)
    refine ⟨host', [], hrelease, ?_⟩
    rw [hnext, Surface.offer, if_pos]
    · rfl
    · by_cases h0 : raw.handle = 0
      · simp [RawHandle.sight, h0]
      · simp [RawHandle.sight, hown h0]
  · obtain ⟨h0, hother⟩ := Classical.not_imp.mp hown
    have hnot : ¬ s.host.IsLive i raw.handle := by
      by_cases hi : i = raw.engine
      · subst hi
        obtain ⟨runs, hreleased⟩ := Option.ne_none_iff_exists'.mp fun hopen => hother ⟨rfl, hopen⟩
        exact hfaithful.not_isLive_of_released hname hfresh hreleased raw.engine
      · exact hfaithful.not_isLive_of_ne hname hfresh hi
    have hnext := surface_withEngine (s := s) (i := i) (f := Counters.offered)
      (e := fun e => e.countRelease.countUnknown) fun _ => rfl
    refine ⟨_, _, Host.release_of_not_live h0 (Host.not_isLive_iff.mp hnot), ?_⟩
    rw [hnext, Surface.offer, if_neg]
    · rfl
    · simp [RawHandle.sight, h0, hother]

/-- A release that is noted shows as such. -/
theorem surface_noteRelease (name : String) (raw : RawHandle n) (s : ClientState n) :
    (noteRelease name raw s).surface = Surface.noteRelease name raw.sight s.surface := by
  rw [noteRelease, surface_keepHandle, Surface.noteRelease, totalRuns_surface]
  rfl

/-- **A release of a raw handle shows**, on any engine. -/
theorem surface_releaseRaw (hs : s.Showing) {raw : RawHandle n}
    (hname : s.handles.lookup name = some raw) :
    ((releaseRaw name raw i).run s).surface =
      (Surface.releaseRaw name raw.sight i).run s.surface := by
  rw [Surface.releaseRaw, Action.run_current_bind, RawHandle.isStale_sight]
  cases hfresh : isStale raw s.host with
  | true =>
    rw [releaseRaw, Action.run_current_bind, hfresh]
    rfl
  | false =>
    obtain ⟨host', events, hrelease, hoffer⟩ := surface_offer (i := i) hs hname hfresh
    rw [if_neg Bool.false_ne_true, run_releaseRaw raw hfresh hrelease, Action.run_bind_of_ok hoffer]
    have hengine : raw.sight.engine = raw.engine := rfl
    by_cases hi : i = raw.engine
    · rw [hengine, if_pos hi, if_pos hi, Performed.surface, surface_noteRelease]
      exact congrArg (Performed.mk _ _) (List.append_nil _).symm
    · rw [hengine, if_neg hi, if_neg hi]
      exact congrArg (Performed.mk _ _) (List.append_nil _).symm

/-- A release of null shows. -/
theorem surface_releaseNull :
    ((onHost (Host.release i 0) >>= fun _ =>
        (pure .done : Action (ClientState n) StepResult)).run s).surface =
      (Action.change (Surface.count i (·.returned false)) >>= fun _ =>
        (pure .done : Action (Surface n) StepResult)).run s.surface := by
  have hnext := surface_withEngine (s := s) (i := i) (f := (·.returned false))
    (e := Engine.countRelease) fun _ => rfl
  rw [Action.run_bind_of_ok (run_onHost_release _ _), Host.release_zero]
  exact congrArg (fun v => (⟨.ok .done, v, []⟩ : Performed (Surface n) StepResult)) hnext

/-! ## 8. All steps -/

/-- Bad input shows as such. -/
theorem sees_badInput {cs : List (Call n)} :
    Sees A s cs ⟨.ok .badInput, s, []⟩
      ((pure .badInput : Action (Surface n) StepResult).run s.surface) :=
  fun _ => rfl

section Parties

variable {setting : Setting} {s : ClientState setting.engines} {engine grammar : Nat}

theorem sees_withEngine {f : Fin setting.engines → Action (ClientState setting.engines) StepResult}
    {h : Fin setting.engines → Action (Surface setting.engines) StepResult}
    {calls : Fin setting.engines → List (Call setting.engines)}
    (hsees : ∀ i, Sees A s (calls i) ((f i).run s) ((h i).run s.surface)) :
    Sees A s (engineCalls setting engine calls) ((withEngine setting engine f).run s)
      ((Surface.onSome (Surface.engineAt? setting.engines engine) h).run s.surface) := by
  unfold engineCalls withEngine Surface.engineAt?
  split
  · exact hsees _
  · exact sees_badInput

theorem sees_withGrammar {f : Grammar → Action (ClientState setting.engines) StepResult}
    {h : Grammar → Action (Surface setting.engines) StepResult}
    {calls : Grammar → List (Call setting.engines)}
    (hsees : ∀ g, Sees A s (calls g) ((f g).run s) ((h g).run s.surface)) :
    Sees A s (grammarCalls setting grammar calls) ((withGrammar setting grammar f).run s)
      ((Surface.onSome setting.grammars[grammar]? h).run s.surface) := by
  unfold grammarCalls withGrammar
  cases setting.grammars[grammar]? with
  | none => exact sees_badInput
  | some g => exact hsees g

theorem sees_withSession {session : Nat}
    {f : Session setting.engines → Action (ClientState setting.engines) StepResult}
    {h : Session setting.engines → Action (Surface setting.engines) StepResult}
    {calls : Session setting.engines → List (Call setting.engines)}
    (hsees : ∀ session, Sees A s (calls session) ((f session).run s) ((h session).run s.surface)) :
    Sees A s (setting.sessions[session]?.elim [] calls) ((withSession setting session f).run s)
      ((Surface.onSome setting.sessions[session]? h).run s.surface) := by
  unfold withSession
  cases setting.sessions[session]? with
  | none => exact sees_badInput
  | some session => exact hsees session

end Parties

section Names

variable {entries : ClientState n → List (String × α)} {shown : Surface n → List (String × β)}

/-- What is kept under a name shows under the name. -/
theorem sees_withNamed (look : α → β) {f : α → Action (ClientState n) StepResult}
    {h : β → Action (Surface n) StepResult} {calls : α → List (Call n)}
    (hshown : shown s.surface = (entries s).map fun entry => (entry.1, look entry.2))
    (hsees : ∀ a, (entries s).lookup name = some a →
      Sees A s (calls a) ((f a).run s) ((h (look a)).run s.surface)) :
    Sees A s (((entries s).lookup name).elim [] calls) ((withNamed entries name f).run s)
      ((Surface.withNamed shown name h).run s.surface) := by
  rw [withNamed, Action.run_current_bind, Surface.withNamed, Action.run_current_bind, hshown,
    lookup_map_entries]
  cases hname : (entries s).lookup name with
  | none => exact sees_badInput
  | some a => exact hsees a hname

/-- A name that is free shows as free. -/
theorem sees_withFreeName (look : α → β) {f : Action (ClientState n) StepResult}
    {h : Action (Surface n) StepResult} {calls : List (Call n)}
    (hshown : shown s.surface = (entries s).map fun entry => (entry.1, look entry.2))
    (hsees : (entries s).lookup name = none → Sees A s calls (f.run s) (h.run s.surface)) :
    Sees A s (if ((entries s).lookup name).isSome then [] else calls)
      ((withFreeName entries name f).run s)
      ((Surface.withFreeName shown name h).run s.surface) := by
  rw [withFreeName, Action.run_current_bind, Surface.withFreeName, Action.run_current_bind, hshown,
    lookup_map_entries]
  cases hname : (entries s).lookup name with
  | none => exact hsees hname
  | some a => exact sees_badInput

end Names

/-- **What a step does shows**, if there is memory for its calls. -/
theorem sees_perform (setting : Setting) {s : ClientState setting.engines} (hs : s.Showing)
    (step : Step) :
    Sees A s (step.calls A setting s) ((step.perform A setting).run s)
      ((Surface.perform setting.grammars setting.sessions step).run s.surface) := by
  cases step with
  | parse engine grammar input =>
    rw [calls, perform, Surface.perform]
    refine sees_withEngine fun i => sees_withGrammar ?_
    intro g
    exact sees_parseAlone hs
  | sessionParse session grammar input =>
    rw [calls, perform, Surface.perform]
    refine sees_withSession fun session => sees_withGrammar ?_
    intro g
    exact sees_bind_pure (sees_parse hs session) _
  | sessionOptions session =>
    rw [perform, Surface.perform]
    intro _
    rw [withSession]
    cases setting.sessions[session]? with
    | none => rfl
    | some session => rfl
  | acquire name engine grammar input =>
    rw [calls, perform, Surface.perform]
    refine sees_withFreeName (Guard.sight · s.host.heap.memory) rfl fun hfree =>
      sees_withEngine fun i => sees_withGrammar ?_
    intro g
    exact sees_acquireGuard hs hfree
  | inspect name limit =>
    intro _
    rw [perform, withNamed, Action.run_current_bind, Surface.perform, Surface.withNamed,
      Action.run_current_bind, surface_guards, lookup_map_entries (Guard.sight · _)]
    cases s.guards.lookup name with
    | none => rfl
    | some guard => exact surface_inspectGuard guard limit
  | drop name =>
    rw [calls, perform, Surface.perform]
    refine sees_withNamed (Guard.sight · s.host.heap.memory) rfl ?_
    intro guard hname _
    exact surface_dropGuard hs hname
  | acquirePanic engine grammar input =>
    rw [calls, perform, Surface.perform]
    refine sees_withEngine fun i => sees_withGrammar ?_
    intro g
    exact sees_acquireAndPanic hs
  | run name engine grammar input =>
    rw [calls, perform, Surface.perform]
    refine sees_withFreeName RawHandle.sight rfl fun hfree =>
      sees_withEngine fun i => sees_withGrammar ?_
    intro g
    exact sees_runRaw hs hfree
  | release name engine =>
    rw [calls, perform, Surface.perform]
    refine sees_withNamed RawHandle.sight rfl fun raw hname => sees_withEngine ?_
    intro i _
    exact surface_releaseRaw hs hname
  | releaseNull engine =>
    rw [calls, perform, Surface.perform]
    refine sees_withEngine ?_
    intro i _
    exact surface_releaseNull
  | grammarText grammar =>
    rw [perform, Surface.perform]
    intro _
    rw [withGrammar]
    cases setting.grammars[grammar]? with
    | none => rfl
    | some g => rfl
  | workers engine grammar crew rounds =>
    rw [calls, perform, Surface.perform]
    refine sees_withEngine fun i => sees_withGrammar ?_
    intro g hroom
    exact surface_bind (sees_countCrewMatches hs (.new i) (crewInputs crew rounds) hroom)
      fun _ _ _ _ => rfl

end Step

/-! ## 9. Scenarios -/

namespace Scenario

variable {setting : Setting} {s : ClientState setting.engines}

/-- What is reported of a step shows. -/
theorem surface_reportStep (hs : s.Showing) (step : Option Step)
    (hroom : s.host.HasRoomFor A (stepCalls A setting s step)) :
    (reportStep A setting s step).1 =
        (Surface.reportStep setting.grammars setting.sessions s.surface step).1 ∧
      (reportStep A setting s step).2.surface =
        (Surface.reportStep setting.grammars setting.sessions s.surface step).2 := by
  cases step with
  | none => exact ⟨rfl, rfl⟩
  | some step =>
    have hseen := Step.sees_perform setting hs step hroom
    rw [reportStep, Surface.reportStep, ← hseen]
    exact ⟨rfl, rfl⟩

/-- After a step guards stand for replies still. -/
theorem showing_reportStep (hs : s.Showing) (step : Option Step) :
    (reportStep A setting s step).2.Showing := by
  cases step with
  | none => exact hs
  | some step => exact hs.effect (Step.effect_perform A setting s step)

/-- **What is reported of steps in turn shows.** -/
theorem surface_reportSteps (hs : s.Showing) (steps : List (Option Step))
    (hroom : s.host.HasRoomFor A (callsFrom A setting s steps)) :
    (reportSteps A setting s steps).1 =
        (Surface.reportSteps setting.grammars setting.sessions s.surface steps).1 ∧
      (reportSteps A setting s steps).2.surface =
        (Surface.reportSteps setting.grammars setting.sessions s.surface steps).2 := by
  induction steps generalizing s with
  | nil => exact ⟨rfl, rfl⟩
  | cons step steps ih =>
    rw [callsFrom, Host.hasRoomFor_append] at hroom
    obtain ⟨hhost, -, -⟩ := reportStep_effect A setting s step
    rw [← hhost] at hroom
    obtain ⟨hfirst, hnext⟩ := surface_reportStep hs step hroom.1
    obtain ⟨hrest, hend⟩ := ih (showing_reportStep hs step) hroom.2
    rw [reportSteps, Surface.reportSteps]
    dsimp only
    rw [← hnext, ← hfirst, ← hrest, ← hend]
    exact ⟨rfl, rfl⟩

/-- **There is memory for a scenario.** -/
def HasRoom (A : Allocators) (scenario : Scenario) : Prop :=
  (Host.start scenario.setting.engines).HasRoomFor A (scenario.calls A)

instance (A : Allocators) (scenario : Scenario) : Decidable (scenario.HasRoom A) :=
  inferInstanceAs (Decidable ((Host.start scenario.setting.engines).HasRoomFor A (scenario.calls A)))

theorem surface_start (n grammars : Nat) :
    (ClientState.start n grammars).surface = Surface.start n grammars := by
  have hcounters : allCounters (Host.start n) = List.replicate n ⟨0, 0, 0, 0⟩ := by
    rw [allCounters, Host.start, Vector.toList_replicate, List.map_replicate]
    rfl
  simp only [ClientState.surface, ClientState.start, Surface.start, hcounters, List.map_nil]

/-- At the end nothing is out on any engine. -/
theorem outstandingAtEnd_eq (A : Allocators) (scenario : Scenario) :
    (scenario.run A).outstandingAtEnd = List.replicate scenario.setting.engines 0 := by
  refine List.eq_replicate_iff.mpr ⟨?_, outstandingAtEnd_eq_zero⟩
  simp [Scenario.run]

/-- **A scenario shows its surface**, as long as there is memory: its report can be worked out without
a heap, and without any policy of placing blocks. -/
theorem run_eq_surface {scenario : Scenario} (hroom : scenario.HasRoom A) :
    scenario.run A = scenario.surface := by
  obtain ⟨setting, steps⟩ := scenario
  obtain ⟨hreports, hend⟩ := surface_reportSteps
    (ClientState.showing_start setting.engines setting.grammars.length) steps hroom
  rw [surface_start] at hreports hend
  have hguards := congrArg (fun v : Surface setting.engines => v.guards.length) hend
  simp only [ClientState.surface_guards, List.length_map] at hguards
  have hout := outstandingAtEnd_eq A ⟨setting, steps⟩
  rw [Scenario.run] at hout ⊢
  dsimp only at hout ⊢
  rw [hout, hreports, hguards]
  rfl

end Scenario

end TokenImage
