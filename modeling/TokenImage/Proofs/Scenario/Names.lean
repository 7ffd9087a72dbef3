/-
# Names that stay

A name that a client keeps stands for the same guard, or for the same raw handle, until the client
gives it up: a guard when it is dropped, a raw handle when its owner is asked to release it.  Other
steps take only names that are free, and change nothing that is kept under another name.

* `ClientState.Renoted` has all that a step can change of what clients keep, and `Step.renoted` says
  that there is no more to it.
* `Step.lookup_guard` and `Step.lookup_handle` are what follows for one name.
* `Step.run_acquireGuard_of_handle` and `Step.run_runRaw_of_handle` say what a step gives that makes
  a guard or a raw handle.
-/
import TokenImage.Proofs.Scenario.Notes
import TokenImage.Proofs.Engine.Views

namespace TokenImage

variable {n : Nat} {A : Allocators}

/-! ## 1. Steps that make guards and raw handles -/

namespace Step

open ClientState

variable {s : ClientState n} {name : String} {i : Fin n} {k : Nat} {g : Grammar}
  {input : List UInt8} {host' : Host n} {handle : Nat}

/-- **A guard comes of a run that gives a handle**, and what it shows is reported. -/
theorem run_acquireGuard_of_handle
    (hrun : (Host.run A i (s.script k g) input).run s.host = ⟨.ok handle, host', []⟩) :
    (acquireGuard A name i k g input).run s =
      ⟨.ok (.acquired ((⟨i, handle⟩ : Guard n).view host'.heap.memory).facts),
        keepGuard name ⟨i, handle⟩ { countCall k s with host := host' }, []⟩ := by
  rw [acquireGuard, run_nextScript_bind, Action.run_bind_of_ok (run_onHost_acquire hrun)]
  rfl

/-- **A raw handle comes of a run that gives one**, and what it shows is reported, if it is not
null. -/
theorem run_runRaw_of_handle
    (hrun : (Host.run A i (s.script k g) input).run s.host = ⟨.ok handle, host', []⟩)
    {kept : ClientState n}
    (hkept : keepHandle name ⟨i, handle, none⟩ { countCall k s with host := host' } = kept) :
    (handle = 0 ∧ (runRaw A name i k g input).run s = ⟨.ok .handedNull, kept, []⟩) ∨
      (handle ≠ 0 ∧ ∃ facts events, (handleFacts handle).run kept = ⟨.ok facts, kept, events⟩ ∧
        (runRaw A name i k g input).run s = ⟨.ok (.handed facts), kept, events⟩) := by
  subst hkept
  rw [runRaw, run_nextScript_bind, Action.run_bind_of_ok (run_onHost_run hrun)]
  by_cases h0 : handle = 0
  · rw [if_pos h0]
    exact .inl ⟨h0, rfl⟩
  · rw [if_neg h0]
    refine .inr ⟨h0, _, _, rfl, ?_⟩
    exact congrArg (Performed.mk _ _) (List.append_nil _)

end Step

/-! ## 2. What a step changes -/

/-- **What a step can change of what clients keep.** -/
inductive ClientState.Renoted (s : ClientState n) : Step → ClientState n → Prop
  /-- A step that makes nothing and gives nothing up. -/
  | same {step t} (hguards : t.guards = s.guards) (hhandles : t.handles = s.handles) :
      Renoted s step t
  /-- A guard under a name that was free. -/
  | acquired {name engine grammar input guard t} (hfree : s.guards.lookup name = none)
      (hguards : t.guards = (name, guard) :: s.guards) (hhandles : t.handles = s.handles) :
      Renoted s (.acquire name engine grammar input) t
  /-- A guard less. -/
  | dropped {name t} (hguards : t.guards = s.guards.filter fun entry => entry.1 ≠ name)
      (hhandles : t.handles = s.handles) : Renoted s (.drop name) t
  /-- A raw handle under a name that was free. -/
  | handed {name engine grammar input raw t} (hfree : s.handles.lookup name = none)
      (hguards : t.guards = s.guards)
      (hhandles : t.handles = (name, raw) :: s.handles.filter fun entry => entry.1 ≠ name) :
      Renoted s (.run name engine grammar input) t
  /-- A raw handle that its owner was asked to release. -/
  | released {name raw raw' t} (hname : s.handles.lookup name = some raw)
      (hguards : t.guards = s.guards)
      (hhandles : t.handles = (name, raw') :: s.handles.filter fun entry => entry.1 ≠ name) :
      Renoted s (.release name raw.engine) t

namespace Step

open ClientState

section Parties

variable {setting : Setting} {s : ClientState n} {Q : Performed (ClientState n) StepResult → Prop}

/-! What holds of bad input, and of the action on whatever a step names, holds of the step. -/

theorem elim_withEngine {engine : Nat} {f : Fin setting.engines → Action (ClientState n) StepResult}
    (hbad : Q ⟨.ok .badInput, s, []⟩) (h : ∀ i, i.val = engine → Q ((f i).run s)) :
    Q ((withEngine setting engine f).run s) := by
  unfold withEngine
  split
  · exact h _ rfl
  · exact hbad

theorem elim_withGrammar {grammar : Nat} {f : Grammar → Action (ClientState n) StepResult}
    (hbad : Q ⟨.ok .badInput, s, []⟩)
    (h : ∀ g, setting.grammars[grammar]? = some g → Q ((f g).run s)) :
    Q ((withGrammar setting grammar f).run s) := by
  unfold withGrammar
  cases hgrammar : setting.grammars[grammar]? with
  | none => exact hbad
  | some g => exact h g hgrammar

theorem elim_withSession {session : Nat}
    {f : Session setting.engines → Action (ClientState n) StepResult}
    (hbad : Q ⟨.ok .badInput, s, []⟩) (h : ∀ session, Q ((f session).run s)) :
    Q ((withSession setting session f).run s) := by
  unfold withSession
  cases setting.sessions[session]? with
  | none => exact hbad
  | some session => exact h session

theorem elim_withNamed {α : Type} {entries : ClientState n → List (String × α)} {name : String}
    {f : α → Action (ClientState n) StepResult} (hbad : Q ⟨.ok .badInput, s, []⟩)
    (h : ∀ a, (entries s).lookup name = some a → Q ((f a).run s)) :
    Q ((withNamed entries name f).run s) := by
  rw [withNamed, Action.run_current_bind]
  cases hname : (entries s).lookup name with
  | none => exact hbad
  | some a => exact h a hname

theorem elim_withFreeName {α : Type} {entries : ClientState n → List (String × α)} {name : String}
    {f : Action (ClientState n) StepResult} (hbad : Q ⟨.ok .badInput, s, []⟩)
    (h : (entries s).lookup name = none → Q (f.run s)) :
    Q ((withFreeName entries name f).run s) := by
  rw [withFreeName, Action.run_current_bind]
  cases hname : (entries s).lookup name with
  | none => exact h hname
  | some a => exact hbad

/-- Steps that make something take a free name, and ask a grammar for an engine. -/
theorem elim_making {α : Type} {entries : ClientState n → List (String × α)} {name : String}
    {engine grammar : Nat}
    {f : Fin setting.engines → Grammar → Action (ClientState n) StepResult}
    (hbad : Q ⟨.ok .badInput, s, []⟩)
    (h : (entries s).lookup name = none → ∀ i g, i.val = engine →
      setting.grammars[grammar]? = some g → Q ((f i g).run s)) :
    Q ((withFreeName entries name (withEngine setting engine fun i =>
      withGrammar setting grammar fun g => f i g)).run s) :=
  elim_withFreeName hbad fun hfree => elim_withEngine hbad fun i hi =>
    elim_withGrammar hbad fun g hg => h hfree i g hi hg

end Parties

/-- A step that only parses changes nothing of what is kept. -/
theorem renoted_of_onlyParses {α : Type} {s : ClientState n} {step : Step} {cs : List (Call n)}
    {done : Performed (ClientState n) α} (h : OnlyParses A s cs done) :
    s.Renoted step done.state :=
  .same h.guards h.handles

section Keeping

variable {s : ClientState n} {name : String} {i : Fin n} {k engine grammar : Nat} {g : Grammar}
  {input : List UInt8}

theorem renoted_acquireGuard (hfree : s.guards.lookup name = none) :
    s.Renoted (.acquire name engine grammar input) ((acquireGuard A name i k g input).run s).state := by
  rcases Host.run_ends A i (s.script k g) input s.host with
    ⟨c, host', hrun⟩ | ⟨handle, host', hrun⟩
  · rw [run_acquireGuard_of_crash hrun]
    exact .same rfl rfl
  · rw [run_acquireGuard_of_handle hrun]
    exact .acquired hfree rfl rfl

theorem renoted_runRaw (hfree : s.handles.lookup name = none) :
    s.Renoted (.run name engine grammar input) ((runRaw A name i k g input).run s).state := by
  rcases Host.run_ends A i (s.script k g) input s.host with
    ⟨c, host', hrun⟩ | ⟨handle, host', hrun⟩
  · rw [run_runRaw_of_crash hrun]
    exact .same rfl rfl
  · rcases run_runRaw_of_handle hrun rfl with ⟨-, h⟩ | ⟨-, facts, events, -, h⟩
    · rw [h]
      exact .handed hfree rfl rfl
    · rw [h]
      exact .handed hfree rfl rfl

theorem renoted_dropGuard (guard : Guard n) :
    s.Renoted (.drop name) ((dropGuard name guard).run s).state := by
  rw [dropGuard, Guard.drop, Action.run_bind_of_ok (run_onHost_release _ _)]
  exact .dropped rfl rfl

theorem renoted_releaseRaw {raw : RawHandle n} (hname : s.handles.lookup name = some raw) :
    s.Renoted (.release name i.val) ((releaseRaw name raw i).run s).state := by
  rw [releaseRaw, Action.run_current_bind]
  cases hstale : isStale raw s.host with
  | true =>
    rw [if_pos rfl]
    exact .same rfl rfl
  | false =>
    rw [if_neg Bool.false_ne_true, Action.run_bind_of_ok (run_onHost_release _ _)]
    by_cases hi : i = raw.engine
    · subst hi
      rw [if_pos rfl]
      exact .released hname rfl rfl
    · rw [if_neg hi]
      exact .same rfl rfl

end Keeping

/-- **Every step changes what clients keep in one of these ways.** -/
theorem renoted (A : Allocators) (setting : Setting) (s : ClientState setting.engines)
    (step : Step) : s.Renoted step ((step.perform A setting).run s).state := by
  have hbad : s.Renoted step s := .same rfl rfl
  cases step with
  | parse engine grammar input =>
    refine elim_withEngine (Q := fun done => s.Renoted _ done.state) hbad fun i _ =>
      elim_withGrammar (Q := fun done => s.Renoted _ done.state) hbad fun g _ => ?_
    exact renoted_of_onlyParses
      (onlyParses_parse_bind_pure (fun script => Host.isParse_parse A i script input) _)
  | sessionParse session grammar input =>
    refine elim_withSession (Q := fun done => s.Renoted _ done.state) hbad fun session =>
      elim_withGrammar (Q := fun done => s.Renoted _ done.state) hbad fun g _ => ?_
    exact renoted_of_onlyParses
      (onlyParses_parse_bind_pure (fun script => session.isParse_parse A script input) _)
  | sessionOptions session =>
    exact elim_withSession (Q := fun done => s.Renoted _ done.state) hbad fun session => hbad
  | acquire name engine grammar input =>
    exact elim_making (Q := fun done => s.Renoted _ done.state) hbad fun hfree i g _ _ =>
      renoted_acquireGuard hfree
  | inspect name limit =>
    exact elim_withNamed (Q := fun done => s.Renoted _ done.state) hbad fun guard _ => hbad
  | drop name =>
    exact elim_withNamed (Q := fun done => s.Renoted _ done.state) hbad fun guard _ =>
      renoted_dropGuard guard
  | acquirePanic engine grammar input =>
    refine elim_withEngine (Q := fun done => s.Renoted _ done.state) hbad fun i _ =>
      elim_withGrammar (Q := fun done => s.Renoted _ done.state) hbad fun g _ => ?_
    exact renoted_of_onlyParses (onlyParses_parse isParse_acquireAndPanic)
  | run name engine grammar input =>
    exact elim_making (Q := fun done => s.Renoted _ done.state) hbad fun hfree i g _ _ =>
      renoted_runRaw hfree
  | release name engine =>
    refine elim_withNamed (Q := fun done => s.Renoted _ done.state) hbad fun raw hname =>
      elim_withEngine (Q := fun done => s.Renoted _ done.state) hbad fun i hi => ?_
    subst hi
    exact renoted_releaseRaw hname
  | releaseNull engine =>
    exact elim_withEngine (Q := fun done => s.Renoted _ done.state) hbad fun i _ => .same rfl rfl
  | grammarText grammar =>
    exact elim_withGrammar (Q := fun done => s.Renoted _ done.state) hbad fun g _ => hbad
  | workers engine grammar crew rounds =>
    refine elim_withEngine (Q := fun done => s.Renoted _ done.state) hbad fun i _ =>
      elim_withGrammar (Q := fun done => s.Renoted _ done.state) hbad fun g _ => ?_
    have hcrew := onlyParses_countCrewMatches (A := A) (s := s) (k := grammar) (g := g) (.new i)
      (crewInputs crew rounds)
    rw [Action.run_bind_pure]
    exact .same hcrew.1.guards hcrew.1.handles

end Step

/-! ## 3. One name -/

section Lookup

variable {α : Type} {l : List (String × α)} {name other : String}

theorem lookup_cons_of_ne (hne : name ≠ other) (a : α) :
    ((other, a) :: l).lookup name = l.lookup name := by
  rw [List.lookup_cons, beq_eq_false_iff_ne.mpr hne]

/-- What is kept under one name is found among what is kept under names but another. -/
theorem lookup_filter_of_ne (hne : name ≠ other) :
    (l.filter fun entry => entry.1 ≠ other).lookup name = l.lookup name := by
  induction l with
  | nil => rfl
  | cons entry l ih =>
    obtain ⟨entryName, a⟩ := entry
    by_cases hentry : entryName = other
    · subst hentry
      rw [List.filter_cons_of_neg (by simp), ih, lookup_cons_of_ne hne]
    · rw [List.filter_cons_of_pos (by simp [hentry]), List.lookup_cons, List.lookup_cons, ih]

end Lookup

namespace Step

variable {setting : Setting} {s : ClientState setting.engines} {step : Step} {name : String}

/-- **A name stands for its guard until the guard is dropped.** -/
theorem lookup_guard {guard : Guard setting.engines} (hname : s.guards.lookup name = some guard)
    (hstep : step ≠ .drop name) :
    ((step.perform A setting).run s).state.guards.lookup name = some guard := by
  have hrenoted := renoted A setting s step
  revert hrenoted
  generalize ((step.perform A setting).run s).state = t
  intro hrenoted
  cases hrenoted with
  | same hguards _ => rw [hguards, hname]
  | @acquired other _ _ _ _ _ hfree hguards _ =>
    have hne : name ≠ other := by
      rintro rfl
      exact nomatch hname.symm.trans hfree
    rw [hguards, lookup_cons_of_ne hne, hname]
  | @dropped other _ hguards _ =>
    have hne : name ≠ other := fun heq => hstep (heq ▸ rfl)
    rw [hguards, lookup_filter_of_ne hne, hname]
  | handed _ hguards _ => rw [hguards, hname]
  | released _ hguards _ => rw [hguards, hname]

/-- **A name stands for its raw handle until the owner is asked to release it.** -/
theorem lookup_handle {raw : RawHandle setting.engines} (hname : s.handles.lookup name = some raw)
    (hstep : step ≠ .release name raw.engine) :
    ((step.perform A setting).run s).state.handles.lookup name = some raw := by
  have hrenoted := renoted A setting s step
  revert hrenoted
  generalize ((step.perform A setting).run s).state = t
  intro hrenoted
  cases hrenoted with
  | same _ hhandles => rw [hhandles, hname]
  | acquired _ _ hhandles => rw [hhandles, hname]
  | dropped _ hhandles => rw [hhandles, hname]
  | @handed other _ _ _ _ _ hfree _ hhandles =>
    have hne : name ≠ other := by
      rintro rfl
      exact nomatch hname.symm.trans hfree
    rw [hhandles, lookup_cons_of_ne hne, lookup_filter_of_ne hne, hname]
  | @released other raw' _ _ hother _ hhandles =>
    have hne : name ≠ other := by
      rintro rfl
      obtain rfl := Option.some.inj (hname.symm.trans hother)
      exact hstep rfl
    rw [hhandles, lookup_cons_of_ne hne, lookup_filter_of_ne hne, hname]

end Step

end TokenImage
