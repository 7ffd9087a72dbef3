/-
# What does not show of replies

A script may say more in a reply than its clients can see: where there is no match it may give a
result without one or a match of a null node, placed anywhere, and any node may have slots to spare.
The two runs lay different things out, and what one of them owns the other may not.  Still every step
gives the same in both, and every engine counts the same after it.

All of it is on the surface.  A report comes of the answers to the questions that are asked
(`Surface.perform_congr`), and of these by what they come to.  A step that keeps a reply depends on
whether there is a result, and all others on the node alone, so that no result will do as well for
them as no match.

* `Surface.reportSteps_congr` is the induction over a scenario, on its surface;
* `Scenario.unobservable` is what follows for the reports of two scenarios.
-/
import TokenImage.Proofs.Scenario.Refinement

namespace TokenImage

/-! ## 1. Steps that ask alike -/

/-- An action depends on what its first part does. -/
theorem Action.run_bind_congr {σ α β : Type} {x y : Action σ α} {f : α → Action σ β} {s : σ}
    (h : x.run s = y.run s) : (x >>= f).run s = (y >>= f).run s := by
  change (Action.bind x f).run s = (Action.bind y f).run s
  rw [Action.bind, Action.bind]
  simp only [h]

/-- The question of a step whose reply is kept, if it asks one: the number of the grammar, and the
input. -/
def Step.kept? : Step → Option (Nat × List UInt8)
  | .acquire _ _ grammar input => some (grammar, input)
  | .run _ _ grammar input => some (grammar, input)
  | _ => none

namespace Surface

variable {n : Nat} {α : Type} {i : Fin n} {k : Nat} {f g : Grammar} {input : List UInt8}
  {v : Surface n}

/-- A run that is looked at is the same with an answer that comes to the same node. -/
theorem glance_congr (h : f.AlikeForParses g) (read : Node → List Event × Except Crash α) :
    glance i k f input read = glance i k g input read := by
  refine congrArg Action.mk (funext fun v => ?_)
  have hends : (v.ends k f input).map Reply.node = (v.ends k g input).map Reply.node :=
    h (v.calls.getD k 0) input
  rw [hends]

theorem parse_congr (h : f.AlikeForParses g) (session : Session n) :
    parse session k f input = parse session k g input :=
  glance_congr h _

theorem countMatches_congr (h : f.AlikeForParses g) (session : Session n)
    (inputs : List (List UInt8)) :
    countMatches session k f inputs = countMatches session k g inputs := by
  induction inputs with
  | nil => rfl
  | cons input inputs ih => rw [countMatches, countMatches, parse_congr h, ih]

theorem countCrewMatches_congr (h : f.AlikeForParses g) (session : Session n)
    (crew : List (List (List UInt8))) :
    countCrewMatches session k f crew = countCrewMatches session k g crew := by
  induction crew with
  | nil => rfl
  | cons inputs crew ih => rw [countCrewMatches, countCrewMatches, countMatches_congr h, ih]

/-- A run is the same with an answer that comes to the same. -/
theorem run_congr (h : v.ends k f input = v.ends k g input) :
    (run i k f input).run v = (run i k g input).run v := by
  rw [run, run]
  simp only [h]

/-- What does the same at every value that is there does the same. -/
theorem run_onSome_congr {o : Option α} {x y : α → Action (Surface n) StepResult}
    (h : ∀ a, o = some a → (x a).run v = (y a).run v) :
    (onSome o x).run v = (onSome o y).run v := by
  cases o with
  | none => rfl
  | some a => exact h a rfl

/-- What takes a free name does the same if what comes then does. -/
theorem run_withFreeName_congr {entries : Surface n → List (String × α)} {name : String}
    {x y : Action (Surface n) StepResult} (h : x.run v = y.run v) :
    (withFreeName entries name x).run v = (withFreeName entries name y).run v := by
  rw [withFreeName, withFreeName, Action.run_current_bind, Action.run_current_bind]
  cases (entries v).lookup name with
  | some a => rfl
  | none => exact h

variable {grammars grammars' : List Grammar} {sessions : List (Session n)}

/-- Grammars with the same number are alike. -/
theorem run_onSome_grammars (hall : List.Forall₂ Grammar.AlikeForParses grammars grammars')
    {x : Grammar → Action (Surface n) StepResult}
    (h : ∀ f g, grammars[k]? = some f → grammars'[k]? = some g → f.AlikeForParses g →
      (x f).run v = (x g).run v) :
    (onSome grammars[k]? x).run v = (onSome grammars'[k]? x).run v := by
  induction hall generalizing k with
  | nil => rfl
  | @cons f g grammars grammars' hfirst hall ih =>
    cases k with
    | zero => exact h f g rfl rfl hfirst
    | succ k => exact ih h

/-- **A step does the same** with grammars that are alike for parses, if the reply that it keeps is the
same. -/
theorem perform_congr (hall : List.Forall₂ Grammar.AlikeForParses grammars grammars')
    {step : Step}
    (hkept : ∀ k input f g, step.kept? = some (k, input) → grammars[k]? = some f →
      grammars'[k]? = some g → v.ends k f input = v.ends k g input) :
    (perform grammars sessions step).run v = (perform grammars' sessions step).run v := by
  cases step with
  | parse engine grammar input =>
    refine run_onSome_congr fun i _ => run_onSome_grammars hall ?_
    intro f g _ _ halike
    rw [parse_congr halike]
  | sessionParse session grammar input =>
    refine run_onSome_congr fun s _ => run_onSome_grammars hall ?_
    intro f g _ _ halike
    rw [parse_congr halike]
  | sessionOptions | inspect | drop | release | releaseNull => rfl
  | acquire name engine grammar input =>
    refine run_withFreeName_congr <| run_onSome_congr fun i _ => run_onSome_grammars hall ?_
    intro f g hf hg _
    exact Action.run_bind_congr (run_congr (hkept grammar input f g rfl hf hg))
  | acquirePanic engine grammar input =>
    refine run_onSome_congr fun i _ => run_onSome_grammars hall ?_
    intro f g _ _ halike
    rw [glance_congr halike]
  | run name engine grammar input =>
    refine run_withFreeName_congr <| run_onSome_congr fun i _ => run_onSome_grammars hall ?_
    intro f g hf hg _
    exact Action.run_bind_congr (run_congr (hkept grammar input f g rfl hf hg))
  | grammarText grammar =>
    refine run_onSome_grammars hall ?_
    intro f g _ _ _
    rfl
  | workers engine grammar crew rounds =>
    refine run_onSome_congr fun i _ => run_onSome_grammars hall ?_
    intro f g _ _ halike
    rw [countCrewMatches_congr halike]

/-! ## 2. Steps in turn -/

/-- **Steps in turn report the same** with grammars that are alike for parses, if the replies that they
keep are the same. -/
theorem reportSteps_congr (hall : List.Forall₂ Grammar.AlikeForParses grammars grammars')
    {steps : List (Option Step)}
    (hkept : ∀ before step after k input f g, steps = before ++ some step :: after →
      step.kept? = some (k, input) → grammars[k]? = some f → grammars'[k]? = some g →
      (reportSteps grammars sessions v before).2.ends k f input =
        (reportSteps grammars sessions v before).2.ends k g input) :
    reportSteps grammars sessions v steps = reportSteps grammars' sessions v steps := by
  induction steps generalizing v with
  | nil => rfl
  | cons step steps ih =>
    have hfirst : reportStep grammars sessions v step = reportStep grammars' sessions v step := by
      cases step with
      | none => rfl
      | some step =>
        have hsame : (perform grammars sessions step).run v =
            (perform grammars' sessions step).run v :=
          perform_congr hall fun k input f g => hkept [] step steps k input f g rfl
        rw [reportStep, reportStep, hsame]
    have hrest := ih (v := (reportStep grammars sessions v step).2)
      fun before later after k input f g heq => by
        subst heq
        exact hkept (step :: before) later after k input f g rfl
    rw [reportSteps, reportSteps, ← hfirst]
    dsimp only
    rw [hrest]

end Surface

/-! ## 3. Scenarios -/

namespace Scenario

variable {A : Allocators} {setting : Setting} {s : ClientState setting.engines}

theorem callsFrom_append (before steps : List (Option Step)) :
    callsFrom A setting s (before ++ steps) =
      callsFrom A setting s before ++ callsFrom A setting (after A setting s before) steps := by
  induction before generalizing s with
  | nil => rfl
  | cons step before ih =>
    rw [List.cons_append, callsFrom, callsFrom, ih, List.append_assoc]
    rfl

/-- **What does not show of replies cannot be observed.**  Take any steps, with any grammars, and other
grammars whose answers are alike for parses.  Whenever a step asks for a reply that it keeps, for a
guard or for a raw handle, let the answers be alike for that too: let them differ by no more than a
match of a null node for no match, and by slots to spare that can be asked for.  Then, as long as there
is memory, all steps report the same with either: their results, the counters of all engines and the
events.  So do the two runs at their end, and blocks may be placed by any policies. -/
theorem unobservable (A B : Allocators) (setting : Setting) (grammars : List Grammar)
    (steps : List (Option Step))
    (hroom : HasRoom A ⟨setting, steps⟩)
    (hroom' : HasRoom B ⟨{ setting with grammars }, steps⟩)
    (hall : List.Forall₂ Grammar.AlikeForParses setting.grammars grammars)
    (hkept : ∀ before step rest k input f g, steps = before ++ some step :: rest →
      step.kept? = some (k, input) → setting.grammars[k]? = some f → grammars[k]? = some g →
      let s := after A setting (.start setting.engines setting.grammars.length) before
      (s.script k f input).Alike (s.script k g input)) :
    run A ⟨setting, steps⟩ = run B ⟨{ setting with grammars }, steps⟩ := by
  have hsame : Surface.reportSteps setting.grammars setting.sessions
        (Surface.start setting.engines setting.grammars.length) steps =
      Surface.reportSteps grammars setting.sessions
        (Surface.start setting.engines setting.grammars.length) steps := by
    refine Surface.reportSteps_congr hall ?_
    intro before step rest k input f g hsteps hquestion hf hg
    have hbefore : (Host.start setting.engines).HasRoomFor A
        (callsFrom A setting (.start setting.engines setting.grammars.length) before) := by
      rw [HasRoom, calls] at hroom
      dsimp only at hroom
      rw [hsteps, callsFrom_append, Host.hasRoomFor_append] at hroom
      exact hroom.1
    have hreached := (surface_reportSteps
      (ClientState.showing_start setting.engines setting.grammars.length) before hbefore).2
    rw [surface_start] at hreached
    rw [← hreached]
    exact hkept before step rest k input f g hsteps hquestion hf hg
  rw [run_eq_surface hroom, run_eq_surface hroom', surface, surface]
  dsimp only
  rw [hsame, hall.length_eq]

/-- A grammar that tells the inputs 1 and others apart, and one without a match. -/
def plainSetting : Setting where
  engines := 2
  grammars :=
    [GrammarRule.grammar (.table [([0x31], .noMatch)]
      (.matched (.sequence [{ shape := .bytes [0x61] }, { shape := .null }]))),
      GrammarRule.grammar (.constant .noMatch)]
  sessions := [.withOptions ⟨0, Nat.zero_lt_two⟩ { maxDepth := some 1 }]

/-- The same grammars with what does not show. -/
def dressedGrammars : List Grammar :=
  [GrammarRule.grammar (.table
      [([0x31], .matched { shape := .null, index := 7, bitOffset := 3, spareCapacity := 5 })]
      (.matched ((Node.sequence [{ shape := .bytes [0x61], spareCapacity := 2 },
        { shape := .null, index := 9 }]).withSpareCapacity 4))),
    GrammarRule.grammar (.constant .nullResult)]

/-- Steps of every kind. -/
def manySteps : List (Option Step) :=
  [some (.acquire "null" 0 0 [0x31]), some (.acquire "tree" 1 0 [0x32]),
    some (.inspect "null" none), some (.inspect "tree" (some 1)), some (.parse 1 1 []),
    some (.sessionParse 0 1 []), some (.sessionParse 0 0 [0x32]), some (.run "raw" 1 0 [0x32]),
    some (.run "rootless" 0 0 [0x31]), some (.release "raw" 0), some (.release "raw" 1),
    some (.release "raw" 1), some (.drop "tree"), some (.acquirePanic 0 0 [0x31]),
    some (.acquirePanic 1 1 []), some (.workers 1 1 2 2), none]

/-- The answers of the first grammar are alike, also for a guard or for a raw handle. -/
theorem alike_dressed {f g : Grammar} (hf : plainSetting.grammars[0]? = some f)
    (hg : dressedGrammars[0]? = some g) (count : Nat) (input : List UInt8) :
    (f count input).Alike (g count input) := by
  obtain rfl := Option.some.inj hf
  obtain rfl := Option.some.inj hg
  simp only [GrammarRule.grammar, List.lookup_cons]
  cases input == [0x31] with
  | true => exact Answer.alike_noMatch 7 3 5
  | false => exact Answer.alike_matched rfl rfl rfl

/-- The reports of many steps are the same with either, and there is memory for both. -/
theorem unobservable_dressed :
    HasRoom .ascending ⟨plainSetting, manySteps⟩ ∧
    HasRoom .ascending ⟨{ plainSetting with grammars := dressedGrammars }, manySteps⟩ ∧
    run .ascending ⟨plainSetting, manySteps⟩ =
      run .ascending ⟨{ plainSetting with grammars := dressedGrammars }, manySteps⟩ := by
  have hroom : HasRoom .ascending ⟨plainSetting, manySteps⟩ := by decide +kernel
  have hroom' : HasRoom .ascending
      ⟨{ plainSetting with grammars := dressedGrammars }, manySteps⟩ := by decide +kernel
  refine ⟨hroom, hroom', unobservable .ascending .ascending plainSetting dressedGrammars manySteps
    hroom hroom' ?_ ?_⟩
  · refine .cons (fun count input => (alike_dressed rfl rfl count input).forParses) (.cons ?_ .nil)
    exact fun _ _ => Answer.alikeForParses_nullResult.symm
  · intro before step rest k input f g hsteps hquestion hf hg s
    have hfirst : manySteps.all fun step => (step.bind Step.kept?).all fun q => q.1 = 0 := rfl
    have hmem : some step ∈ manySteps := by
      rw [hsteps]
      exact List.mem_append_right _ List.mem_cons_self
    have hquestions := List.all_eq_true.mp hfirst _ hmem
    rw [Option.bind_some, hquestion] at hquestions
    obtain rfl : k = 0 := of_decide_eq_true hquestions
    exact alike_dressed hf hg _ input

end Scenario

end TokenImage
