/-
# Clients do not disturb each other

A client that has made a guard, or a raw handle, sees the same of it from then on, whatever steps are
taken in between: its own or other clients', on any engines, parses that are lost to panics and
releases of the wrong handle on the wrong engine included.  It is also what the client would see if
it were alone, because it depends on the reply of the script and the length of the input only.  And
when the client gives it up, its engine knows it still.

The invariant is that the name goes on standing for the handle, that the handle is out and so stands
for its reply (`Host.Shows`), and that the notes of the clients are true.

* `Host.Shows.noted` is the step: what a client does leaves every handle alone that is out after it.
* `Scenario.shows_after` is the induction over any steps that leave the name alone.
* `Scenario.undisturbed` has what follows for guards and for raw handles.
-/
import TokenImage.Proofs.Engine.Releases
import TokenImage.Proofs.Scenario.Conservation
import TokenImage.Proofs.Scenario.Names

namespace TokenImage

variable {n : Nat} {A : Allocators}

/-! ## 1. What a raw handle shows -/

/-- What a raw handle shows of a reply that has a result, with the events of the reading. -/
def Reply.handleView (reply : Reply) (inputLength : Nat) : List Event × HandleFacts :=
  if reply.node.isNull then ([], ⟨none, some (inputBits inputLength), true⟩)
  else
    ((reply.node.reading none).1,
      ⟨some (reply.node.reading none).2, some (inputBits inputLength), true⟩)

/-- **A raw handle shows what its reply shows.** -/
theorem Step.handleFacts_of_shows {s : ClientState n} {i : Fin n} {handle inputLength : Nat}
    {reply : Reply} (h : s.host.Shows i handle reply inputLength) (h0 : handle ≠ 0) :
    (handleFacts handle).run s =
      ⟨.ok (reply.handleView inputLength).2, s, (reply.handleView inputLength).1⟩ := by
  cases h with
  | null => exact absurd rfl h0
  | result _ _ hat =>
    rw [handleFacts, ClientState.lookAtMemory, Action.look, Reply.handleView]
    simp only [hat.root_eq, hat.bitLength_eq, hat.arena_eq, Option.getD_some,
      hat.laid.eq_zero_iff, beq_self_eq_true]
    split
    · rfl
    · rw [hat.laid.reading]

/-! ## 2. Steps of others -/

namespace Host

variable {host : Host n} {i : Fin n} {handle inputLength : Nat} {reply : Reply}

/-- **What a client does leaves every handle alone that is out after it.** -/
theorem Shows.noted {s : ClientState n} {cs : List (Call n)} {guards : List (String × Guard n)}
    {handles : List (String × RawHandle n)} (h : s.host.Shows i handle reply inputLength)
    (hs : s.host.Sound) (hnoted : s.Noted A cs guards handles)
    (hlive : handle ≠ 0 → (s.host.calls A cs).2.IsLive i handle) :
    (s.host.calls A cs).2.Shows i handle reply inputLength := by
  refine h.keep fun tree hholds => ?_
  have h0 : handle ≠ 0 := hs.owned.ne_zero (isLive_iff.mpr ⟨tree, hholds⟩)
  cases hnoted with
  | parses hp => exact hp.keeps hs hholds
  | acquired | dropped | handed | released | offered | releasedNull =>
    exact keeps_call hs _ hholds (hlive h0)

end Host

/-- **A state that clients can reach**: their notes are true, and live blocks do not overlap. -/
structure ClientState.Sound (s : ClientState n) : Prop where
  faithful : Faithful s.host s.guards s.handles
  host : s.host.Sound

/-- A guard that a client has is out, unless it is null. -/
theorem Faithful.isLive_of_guard {host : Host n} {guards : List (String × Guard n)}
    {handles : List (String × RawHandle n)} {name : String} {guard : Guard n}
    (h : Faithful host guards handles) (hname : guards.lookup name = some guard)
    (h0 : guard.handle ≠ 0) : host.IsLive guard.engine guard.handle := by
  refine (h.tracks.isLive_iff h0).mpr ?_
  exact (openIn_perm_of_guard h.guardNames hname).mem_iff.mpr List.mem_cons_self

namespace Scenario

variable {setting : Setting} {s : ClientState setting.engines} {i : Fin setting.engines}
  {handle inputLength : Nat} {reply : Reply}

/-- The state after steps. -/
def after (A : Allocators) (setting : Setting) (s : ClientState setting.engines)
    (steps : List (Option Step)) : ClientState setting.engines :=
  (reportSteps A setting s steps).2

/-- A step keeps a state sound. -/
theorem sound_reportStep (h : s.Sound) (step : Option Step) :
    (reportStep A setting s step).2.Sound := by
  obtain ⟨hhost, -, hnoted⟩ := reportStep_effect A setting s step
  refine ⟨?_, ?_⟩
  · rw [hhost]
    exact h.faithful.noted hnoted
  · rw [hhost]
    exact h.host.calls A _

theorem sound_start (n grammars : Nat) : (ClientState.start n grammars).Sound :=
  ⟨faithful_start n, Host.sound_start n⟩

/-- Steps keep a state sound. -/
theorem sound_after (h : s.Sound) (steps : List (Option Step)) :
    (after A setting s steps).Sound := by
  induction steps generalizing s with
  | nil => exact h
  | cons step steps ih => exact ih (sound_reportStep h step)

/-- A handle that is out after a step stands for the reply that it stood for before. -/
theorem shows_reportStep (hs : s.Sound) (h : s.host.Shows i handle reply inputLength)
    (step : Option Step)
    (hlive : handle ≠ 0 → (reportStep A setting s step).2.host.IsLive i handle) :
    (reportStep A setting s step).2.host.Shows i handle reply inputLength := by
  obtain ⟨hhost, -, hnoted⟩ := reportStep_effect A setting s step
  rw [hhost] at hlive ⊢
  exact h.noted hs.host hnoted hlive

/-- **A handle stands for its reply for as long as it is kept.**  What keeps it is a property of the
client's notes that the steps leave alone, and that means that the handle is out. -/
theorem shows_after (Kept : ClientState setting.engines → Prop) {steps : List (Option Step)}
    (hstep : ∀ s, ∀ step ∈ steps, Kept s → Kept (reportStep A setting s step).2)
    (hlive : ∀ s, s.Sound → Kept s → handle ≠ 0 → s.host.IsLive i handle)
    (hs : s.Sound) (hkept : Kept s) (h : s.host.Shows i handle reply inputLength) :
    Kept (after A setting s steps) ∧
      (after A setting s steps).host.Shows i handle reply inputLength := by
  induction steps generalizing s with
  | nil => exact ⟨hkept, h⟩
  | cons step steps ih =>
    have hkept' := hstep s step List.mem_cons_self hkept
    have hs' := sound_reportStep (A := A) hs step
    have h' := shows_reportStep hs h step (hlive _ hs' hkept')
    exact ih (fun s step hmem => hstep s step (List.mem_cons_of_mem _ hmem)) hs' hkept' h'

variable {name : String} {steps : List (Option Step)}

/-- A guard that is not dropped is kept, and goes on standing for its reply. -/
theorem guard_after {guard : Guard setting.engines} (hs : s.Sound)
    (hname : s.guards.lookup name = some guard) (hnot : some (.drop name) ∉ steps)
    (h : s.host.Shows guard.engine guard.handle reply inputLength) :
    (after A setting s steps).guards.lookup name = some guard ∧
      (after A setting s steps).host.Shows guard.engine guard.handle reply inputLength := by
  refine shows_after (fun s => s.guards.lookup name = some guard) ?_ ?_ hs hname h
  · intro s step hmem hname
    cases step with
    | none => exact hname
    | some step =>
      refine Step.lookup_guard hname ?_
      rintro rfl
      exact hnot hmem
  · intro s hs hname h0
    exact hs.faithful.isLive_of_guard hname h0

/-- A raw handle that its owner is not asked to release is kept, and goes on standing for its
reply. -/
theorem handle_after {raw : RawHandle setting.engines} (hs : s.Sound)
    (hname : s.handles.lookup name = some raw) (hopen : raw.releasedAt = none)
    (hnot : some (.release name raw.engine) ∉ steps)
    (h : s.host.Shows raw.engine raw.handle reply inputLength) :
    (after A setting s steps).handles.lookup name = some raw ∧
      (after A setting s steps).host.Shows raw.engine raw.handle reply inputLength := by
  refine shows_after (fun s => s.handles.lookup name = some raw) ?_ ?_ hs hname h
  · intro s step hmem hname
    cases step with
    | none => exact hname
    | some step =>
      refine Step.lookup_handle hname ?_
      rintro rfl
      exact hnot hmem
  · intro s hs hname h0
    exact hs.faithful.isLive_of_open hname hopen h0

end Scenario

/-! ## 3. What clients make -/

/-- Whether a step reports a new raw handle, null or not. -/
def StepResult.isHanded : StepResult → Bool
  | .handedNull => true
  | .handed _ => true
  | _ => false

/-- The grammar with this number answers the input so when it is asked next. -/
def ClientState.Answers {setting : Setting} (s : ClientState setting.engines) (grammar : Nat)
    (input : List UInt8) (reply : Reply) : Prop :=
  ∃ g, setting.grammars[grammar]? = some g ∧ s.script grammar g input = .reply reply

/-- A run that gives a handle has an answer, for which the handle stands. -/
theorem Host.exists_shows_of_run {host host' : Host n} {i : Fin n} {handle : Nat} {script : Script}
    {input : List UInt8}
    (hrun : (Host.run A i script input).run host = ⟨.ok handle, host', []⟩) :
    ∃ reply, script input = .reply reply ∧ host'.Shows i handle reply input.length := by
  cases hs : script input with
  | panic text => exact nomatch (run_of_panic hs).symm.trans hrun
  | reply reply => exact ⟨reply, rfl, shows_of_run hs hrun⟩

namespace Step

open ClientState

variable {setting : Setting} {s : ClientState setting.engines} {name : String}
  {engine grammar : Nat} {input : List UInt8}

/-- **A guard has been made** for the answer of a grammar, and its facts were reported. -/
structure MadeGuard (s t : ClientState setting.engines) (name : String) (engine grammar : Nat)
    (input : List UInt8) (facts : GuardFacts) (guard : Guard setting.engines) (reply : Reply) :
    Prop where
  engine_eq : guard.engine.val = engine
  answers : s.Answers grammar input reply
  lookup_eq : t.guards.lookup name = some guard
  shows : t.host.Shows guard.engine guard.handle reply input.length
  facts_eq : facts = (guard.view t.host.heap.memory).facts

/-- A step that reports a new guard has made one. -/
theorem exists_madeGuard {facts : GuardFacts}
    (h : (((acquire name engine grammar input).perform A setting).run s).result =
      .ok (.acquired facts)) :
    ∃ guard reply, MadeGuard s (((acquire name engine grammar input).perform A setting).run s).state
      name engine grammar input facts guard reply := by
  refine elim_making (Q := fun done => done.result = .ok (.acquired facts) →
    ∃ guard reply, MadeGuard s done.state name engine grammar input facts guard reply) nofun ?_ h
  intro _ i g hi hg hresult
  rcases Host.run_ends A i (s.script grammar g) input s.host with
    ⟨c, host', hrun⟩ | ⟨handle, host', hrun⟩
  · rw [run_acquireGuard_of_crash hrun] at hresult
    exact nomatch hresult
  · obtain ⟨reply, hreply, hshows⟩ := Host.exists_shows_of_run hrun
    rw [run_acquireGuard_of_handle hrun] at hresult ⊢
    obtain rfl := StepResult.acquired.inj (Except.ok.inj hresult)
    exact ⟨⟨i, handle⟩, reply, hi, ⟨g, hg, hreply⟩, List.lookup_cons_self, hshows, rfl⟩

/-- **A raw handle has been made** for the answer of a grammar, and what it shows was reported, unless
it is null. -/
structure MadeHandle (s : ClientState setting.engines) (name : String) (engine grammar : Nat)
    (input : List UInt8) (raw : RawHandle setting.engines) (reply : Reply)
    (done : Performed (ClientState setting.engines) StepResult) : Prop where
  engine_eq : raw.engine.val = engine
  releasedAt_eq : raw.releasedAt = none
  answers : s.Answers grammar input reply
  lookup_eq : done.state.handles.lookup name = some raw
  shows : done.state.host.Shows raw.engine raw.handle reply input.length
  reported : (raw.handle = 0 ∧ done.result = .ok .handedNull) ∨
    (raw.handle ≠ 0 ∧ ∃ facts, done.result = .ok (.handed facts) ∧
      (handleFacts raw.handle).run done.state = ⟨.ok facts, done.state, done.events⟩)

/-- A step that reports a new raw handle has made one. -/
theorem exists_madeHandle {result : StepResult} (hhanded : result.isHanded = true)
    (h : (((run name engine grammar input).perform A setting).run s).result = .ok result) :
    ∃ raw reply, MadeHandle s name engine grammar input raw reply
      (((run name engine grammar input).perform A setting).run s) := by
  refine elim_making (Q := fun done => done.result = .ok result →
    ∃ raw reply, MadeHandle s name engine grammar input raw reply done) ?_ ?_ h
  · intro hresult
    obtain rfl := Except.ok.inj hresult
    exact nomatch hhanded
  intro _ i g hi hg hresult
  rcases Host.run_ends A i (s.script grammar g) input s.host with
    ⟨c, host', hrun⟩ | ⟨handle, host', hrun⟩
  · rw [run_runRaw_of_crash hrun] at hresult
    exact nomatch hresult
  · obtain ⟨reply, hreply, hshows⟩ := Host.exists_shows_of_run hrun
    refine ⟨⟨i, handle, none⟩, reply, ?_⟩
    rcases run_runRaw_of_handle hrun rfl with ⟨h0, hdone⟩ | ⟨h0, facts, events, hfacts, hdone⟩
    · rw [hdone]
      exact ⟨hi, rfl, ⟨g, hg, hreply⟩, List.lookup_cons_self, hshows, .inl ⟨h0, rfl⟩⟩
    · rw [hdone]
      exact ⟨hi, rfl, ⟨g, hg, hreply⟩, List.lookup_cons_self, hshows, .inr ⟨h0, facts, rfl, hfacts⟩⟩

end Step

/-! ## 4. What clients go on seeing -/

/-- **A result is undisturbed** from one state to another: its guard, or a guard of its raw handle,
shows the same of it, which is what the guard of a run on its own shows if the script gives the same
reply, and it has the bits of the input. -/
structure Undisturbed (reply : Reply) (input : List UInt8) (guard : Guard n)
    (s t : ClientState n) : Prop where
  same : guard.view t.host.heap.memory = guard.view s.host.heap.memory
  alone : ∀ (B : Allocators) {k : Nat} (j : Fin k) (script : Script) (own : Guard k) (lone : Host k),
    script input = .reply reply →
    (Guard.acquire B j script input).run (Host.start k) = ⟨.ok own, lone, []⟩ →
    guard.view t.host.heap.memory = own.view lone.heap.memory
  bitLength : guard.handle ≠ 0 → ∃ bits,
    (guard.view t.host.heap.memory).facts.bitLength = some bits ∧
      bits.toInt = min (8 * input.length : Int) (2 ^ 63 - 1)

/-- A guard of a run shows what the reply of its script shows. -/
theorem Guard.view_of_acquire {host host' : Host n} {i : Fin n} {script : Script}
    {input : List UInt8} {guard : Guard n} {reply : Reply} (hs : script input = .reply reply)
    (h : (Guard.acquire A i script input).run host = ⟨.ok guard, host', []⟩) :
    guard.view host'.heap.memory = reply.view input.length := by
  rw [acquire, Action.run_bind_pure] at h
  rcases hrun : (Host.run A i script input).run host with ⟨result, state, events⟩
  rw [hrun] at h
  cases result with
  | error c => cases h
  | ok handle =>
    obtain ⟨hguard, rfl, hevents⟩ := Performed.mk.inj h
    obtain rfl := Except.ok.inj hguard
    obtain rfl : events = [] := hevents
    exact (Host.shows_of_run hs hrun).view

/-- The view of a result is that of its reply, wherever and whenever it stands for it. -/
theorem undisturbed_of_shows {s t : ClientState n} {reply : Reply} {input : List UInt8}
    (guard : Guard n) (hs : s.host.Shows guard.engine guard.handle reply input.length)
    (ht : t.host.Shows guard.engine guard.handle reply input.length) :
    Undisturbed reply input guard s t := by
  refine ⟨ht.view.trans hs.view.symm, fun B k j script own lone hscript hown => ?_, fun h0 => ?_⟩
  · exact ht.view.trans (Guard.view_of_acquire hscript hown).symm
  · refine ⟨inputBits input.length, ?_, toInt_inputBits input.length⟩
    rw [ht.view]
    exact if_pos (ht.hasResult h0)

namespace Scenario

variable {setting : Setting} {s : ClientState setting.engines} {name : String}

/-- A step that ends shows what it gave. -/
theorem result_of_reportStep {step : Step} {result : StepResult}
    (h : (reportStep A setting s (some step)).1.result = result)
    (hended : ∀ c, result ≠ .crashed c) :
    ((step.perform A setting).run s).result = .ok result := by
  rw [reportStep] at h
  cases hdone : ((step.perform A setting).run s).result with
  | error c =>
    simp only [hdone] at h
    exact absurd h.symm (hended c)
  | ok result' =>
    simp only [hdone] at h
    rw [h]

/-- A look at a guard reports what the guard shows. -/
theorem reportStep_inspect {guard : Guard setting.engines}
    (hname : s.guards.lookup name = some guard) (limit : Option UInt64) :
    reportStep A setting s (some (.inspect name limit)) =
      (⟨.inspected (guard.view s.host.heap.memory).facts
          ((guard.view s.host.heap.memory).reading limit).2,
        allCounters s.host, ((guard.view s.host.heap.memory).reading limit).1⟩, s) := by
  have hdone : ((Step.perform A setting (.inspect name limit)).run s) =
      ⟨.ok (.inspected (guard.view s.host.heap.memory).facts
          ((guard.view s.host.heap.memory).reading limit).2), s,
        ((guard.view s.host.heap.memory).reading limit).1⟩ := by
    rw [Step.perform, Step.withNamed, Action.run_current_bind, hname]
    exact congrArg (Performed.mk _ _) (List.append_nil _)
  rw [reportStep, hdone]

/-- The end of a guard is the release of its handle. -/
theorem reportStep_drop {guard : Guard setting.engines}
    (hname : s.guards.lookup name = some guard) :
    (reportStep A setting s (some (.drop name))).1.result = .done ∧
      (reportStep A setting s (some (.drop name))).1.events =
        ((Host.release guard.engine guard.handle).run s.host).events ∧
      (reportStep A setting s (some (.drop name))).2.host =
        ((Host.release guard.engine guard.handle).run s.host).state := by
  have hdone : ((Step.perform A setting (.drop name)).run s) =
      ⟨.ok .done, ClientState.forgetGuard name
          { s with host := ((Host.release guard.engine guard.handle).run s.host).state },
        ((Host.release guard.engine guard.handle).run s.host).events⟩ := by
    rw [Step.perform, Step.withNamed, Action.run_current_bind, hname]
    dsimp only
    rw [Step.dropGuard, Guard.drop, Action.run_bind_of_ok (Step.run_onHost_release _ _)]
    exact congrArg (Performed.mk _ _) (List.append_nil _)
  rw [reportStep, hdone]
  exact ⟨rfl, rfl, rfl⟩

/-- A release of a raw handle by its owner is the release of the handle. -/
theorem reportStep_release {raw : RawHandle setting.engines}
    (hname : s.handles.lookup name = some raw) (hopen : raw.releasedAt = none) :
    (reportStep A setting s (some (.release name raw.engine))).1.result = .done ∧
      (reportStep A setting s (some (.release name raw.engine))).1.events =
        ((Host.release raw.engine raw.handle).run s.host).events ∧
      (reportStep A setting s (some (.release name raw.engine))).2.host =
        ((Host.release raw.engine raw.handle).run s.host).state := by
  have hstale : Step.isStale raw s.host = false := by
    rw [Step.isStale, hopen]
  have hdone : ((Step.perform A setting (.release name raw.engine)).run s) =
      ⟨.ok .done, Step.noteRelease name raw
          { s with host := ((Host.release raw.engine raw.handle).run s.host).state },
        ((Host.release raw.engine raw.handle).run s.host).events⟩ := by
    rw [Step.perform, Step.withNamed, Action.run_current_bind, hname]
    dsimp only
    rw [Step.withEngine, dif_pos raw.engine.isLt, Step.releaseRaw, Action.run_current_bind, hstale,
      if_neg Bool.false_ne_true, Action.run_bind_of_ok (Step.run_onHost_release _ _), if_pos rfl]
    exact congrArg (Performed.mk _ _) (List.append_nil _)
  rw [reportStep, hdone]
  exact ⟨rfl, rfl, rfl⟩

variable {steps : List (Option Step)} {engine grammar : Nat} {input : List UInt8} {reply : Reply}
  {made : ClientState setting.engines}

/-- What comes of a guard that has been made, after steps that do not drop it. -/
theorem later_of_madeGuard {facts : GuardFacts} {guard : Guard setting.engines}
    (hguard : Step.MadeGuard s made name engine grammar input facts guard reply) (hmade : made.Sound)
    (hnot : some (.drop name) ∉ steps) :
    let t := after A setting made steps
    let dropped := reportStep A setting t (some (.drop name))
    t.guards.lookup name = some guard ∧ Undisturbed reply input guard made t ∧
      (∀ limit, reportStep A setting t (some (.inspect name limit)) =
        (⟨.inspected facts ((guard.view t.host.heap.memory).reading limit).2,
          allCounters t.host, ((guard.view t.host.heap.memory).reading limit).1⟩, t)) ∧
      dropped.1.result = .done ∧
      t.host.OwnerReleased dropped.2.host guard.engine guard.handle dropped.1.events := by
  intro t dropped
  obtain ⟨hname, hshows⟩ := guard_after (A := A) hmade hguard.lookup_eq hnot hguard.shows
  have hview : guard.view t.host.heap.memory = guard.view made.host.heap.memory :=
    hshows.view.trans hguard.shows.view.symm
  have hsound : t.Sound := sound_after hmade steps
  obtain ⟨hresult, hevents, hhost⟩ := reportStep_drop (A := A) hname
  refine ⟨hname, undisturbed_of_shows guard hguard.shows hshows, fun limit => ?_, hresult, ?_⟩
  · rw [reportStep_inspect hname, hguard.facts_eq, hview]
  · have hreleased := hshows.ownerReleased hsound.host.owned
    rw [← hevents, ← hhost] at hreleased
    exact hreleased

/-- What comes of a raw handle that has been made, after steps in which its owner is not asked to
release it. -/
theorem later_of_madeHandle {raw : RawHandle setting.engines}
    {done : Performed (ClientState setting.engines) StepResult}
    (hraw : Step.MadeHandle s name engine grammar input raw reply done) (hmade : done.state.Sound)
    (hnot : some (.release name engine) ∉ steps) :
    let t := after A setting done.state steps
    let released := reportStep A setting t (some (.release name engine))
    t.handles.lookup name = some raw ∧
      Undisturbed reply input ⟨raw.engine, raw.handle⟩ done.state t ∧
      (raw.handle ≠ 0 → ∃ facts, done.result = .ok (.handed facts) ∧
        (Step.handleFacts raw.handle).run t = ⟨.ok facts, t, done.events⟩) ∧
      released.1.result = .done ∧
      t.host.OwnerReleased released.2.host raw.engine raw.handle released.1.events := by
  intro t released
  have hengine := hraw.engine_eq
  obtain ⟨hname, hshows⟩ := handle_after (A := A) hmade hraw.lookup_eq hraw.releasedAt_eq
    (by rwa [hengine]) hraw.shows
  have hsound : t.Sound := sound_after hmade steps
  obtain ⟨hresult, hevents, hhost⟩ := reportStep_release (A := A) hname hraw.releasedAt_eq
  rw [hengine] at hresult hevents hhost
  refine ⟨hname, undisturbed_of_shows ⟨raw.engine, raw.handle⟩ hraw.shows hshows, fun h0 => ?_,
    hresult, ?_⟩
  · rcases hraw.reported with ⟨hzero, -⟩ | ⟨-, facts, hfacts, hlook⟩
    · exact absurd hzero h0
    have hthen := (Step.handleFacts_of_shows hraw.shows h0).symm.trans hlook
    obtain ⟨hsame, -, hsameEvents⟩ := Performed.mk.inj hthen
    refine ⟨facts, hfacts, ?_⟩
    rw [Step.handleFacts_of_shows hshows h0, hsame, hsameEvents]
  · have hreleased := hshows.ownerReleased hsound.host.owned
    rw [← hevents, ← hhost] at hreleased
    exact hreleased

/-- **Clients do not disturb each other.**  Let clients have taken any steps, and let one of them make
a guard under a name, or a raw handle.  Then, after any steps among which the guard is not dropped, or
the owner is not asked to release the raw handle:

* the name still stands for it, and its result is undisturbed; it is that of the reply which the
  grammar gave;
* a look at the guard, under any limit and under none, reports the facts that were reported when it was
  made, and the same reading of its tree; a look at the raw handle reports all that was reported then;
* the end of the guard, or the release of the raw handle, is a release by the owner. -/
theorem undisturbed (A : Allocators) (setting : Setting) (before steps : List (Option Step))
    (name : String) (engine grammar : Nat) (input : List UInt8) :
    let s := after A setting (.start setting.engines setting.grammars.length) before
    (∀ facts,
      let made := reportStep A setting s (some (.acquire name engine grammar input))
      let t := after A setting made.2 steps
      let dropped := reportStep A setting t (some (.drop name))
      made.1.result = .acquired facts → some (.drop name) ∉ steps →
      ∃ guard reply, guard.engine.val = engine ∧ s.Answers grammar input reply ∧
        t.guards.lookup name = some guard ∧ Undisturbed reply input guard made.2 t ∧
        (∀ limit, reportStep A setting t (some (.inspect name limit)) =
          (⟨.inspected facts ((guard.view t.host.heap.memory).reading limit).2,
            allCounters t.host, ((guard.view t.host.heap.memory).reading limit).1⟩, t)) ∧
        dropped.1.result = .done ∧
        t.host.OwnerReleased dropped.2.host guard.engine guard.handle dropped.1.events) ∧
    (let made := reportStep A setting s (some (.run name engine grammar input))
      let t := after A setting made.2 steps
      let released := reportStep A setting t (some (.release name engine))
      made.1.result.isHanded = true → some (.release name engine) ∉ steps →
      ∃ raw reply, raw.engine.val = engine ∧ s.Answers grammar input reply ∧
        t.handles.lookup name = some raw ∧
        Undisturbed reply input ⟨raw.engine, raw.handle⟩ made.2 t ∧
        (raw.handle ≠ 0 → ∃ facts, made.1.result = .handed facts ∧
          (Step.handleFacts raw.handle).run t = ⟨.ok facts, t, made.1.events⟩) ∧
        released.1.result = .done ∧
        t.host.OwnerReleased released.2.host raw.engine raw.handle released.1.events) := by
  intro s
  have hs : s.Sound := sound_after (sound_start _ _) before
  refine ⟨?_, ?_⟩
  · intro facts made t dropped hmade hnot
    have hdone := result_of_reportStep hmade nofun
    obtain ⟨guard, reply, hguard⟩ := Step.exists_madeGuard hdone
    exact ⟨guard, reply, hguard.engine_eq, hguard.answers,
      later_of_madeGuard hguard (sound_reportStep hs _) hnot⟩
  · intro made t released hmade hnot
    have hended : ∀ c, made.1.result ≠ .crashed c := by
      intro c hcrashed
      rw [hcrashed] at hmade
      exact nomatch hmade
    have hdone : (((Step.run name engine grammar input).perform A setting).run s).result =
        .ok made.1.result := result_of_reportStep rfl hended
    obtain ⟨raw, reply, hraw⟩ := Step.exists_madeHandle hmade hdone
    have hmadeSound : made.2.Sound := sound_reportStep hs _
    obtain ⟨hname, hsame, hlook, hends⟩ := later_of_madeHandle (A := A) hraw hmadeSound hnot
    refine ⟨raw, reply, hraw.engine_eq, hraw.answers, hname, hsame, fun h0 => ?_, hends⟩
    obtain ⟨facts, hfacts, hreport⟩ := hlook h0
    exact ⟨facts, Except.ok.inj (hdone.symm.trans hfacts), hreport⟩

/-- Two engines, with a grammar of digits, one that echoes, and one that panics. -/
def crowd : Setting where
  engines := 2
  grammars := [GrammarRule.digits.grammar, GrammarRule.echo.grammar, GrammarRule.panic.grammar]
  sessions := [.new ⟨0, Nat.zero_lt_two⟩]

/-- A client that has a guard before. -/
def crowdBefore : List (Option Step) :=
  [some (.acquire "other" 1 1 [0x61])]

/-- Steps of other clients: the end of a guard, a raw handle that is released on the wrong engine and
twice on the right one, guards that are lost to panics, a null release and two parses. -/
def crowdSteps : List (Option Step) :=
  [some (.drop "other"), some (.run "raw" 1 1 [0x62]), some (.release "raw" 0),
    some (.release "raw" 1), some (.release "raw" 1), some (.acquirePanic 0 0 [0x31]),
    some (.acquirePanic 0 2 []), some (.releaseNull 0), some (.sessionParse 0 0 [0x33]),
    some (.parse 1 2 [])]

/-- A guard of two digits, and a raw handle that is offered to the other engine among these steps,
show then what they showed before, and end in silence. -/
theorem undisturbed_crowd :
    let s := after .ascending crowd (.start crowd.engines crowd.grammars.length) crowdBefore
    let guarded := after .ascending crowd
      (reportStep .ascending crowd s (some (.acquire "own" 0 0 [0x31, 0x32]))).2 crowdSteps
    let handed := after .ascending crowd
      (reportStep .ascending crowd s (some (.run "own" 0 0 [0x31, 0x32]))).2
      (some (.release "own" 1) :: crowdSteps)
    ((∀ limit, ∃ tree, (reportStep .ascending crowd guarded (some (.inspect "own" limit))).1.result =
        .inspected ⟨false, true, some 16⟩ tree) ∧
      (reportStep .ascending crowd guarded (some (.drop "own"))).1.result = .done ∧
      (reportStep .ascending crowd guarded (some (.drop "own"))).1.events = []) ∧
    (reportStep .ascending crowd handed (some (.release "own" 0))).1.result = .done ∧
      (reportStep .ascending crowd handed (some (.release "own" 0))).1.events = [] := by
  dsimp only
  have hguards := (undisturbed .ascending crowd crowdBefore crowdSteps "own" 0 0 [0x31, 0x32]).1
  have hhandles := (undisturbed .ascending crowd crowdBefore (some (.release "own" 1) :: crowdSteps)
    "own" 0 0 [0x31, 0x32]).2
  obtain ⟨guard, _, -, -, -, -, hlook, hdone, hdropped⟩ :=
    hguards ⟨false, true, some 16⟩ rfl (by simp [crowdSteps])
  obtain ⟨raw, _, -, -, -, -, -, hended, hreleased⟩ := hhandles rfl (by simp [crowdSteps])
  refine ⟨⟨fun limit => ?_, hdone, hdropped.silent⟩, hended, hreleased.silent⟩
  rw [hlook limit]
  exact ⟨_, rfl⟩

end Scenario

end TokenImage
