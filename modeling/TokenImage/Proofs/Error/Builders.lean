/-
# What the builders of an error leave behind

An error begins as a kind and nothing else.  Calls of its three builders then replace its message,
its depth and its source, in any order and any number of times, and a source is a failed parse, an
error of another library, or another error that was made in the same way.  A `Recipe` is all of that,
also what was replaced later on.

**The last call of each builder counts, and no other** (`Recipe.build_eq`).  One law of one call
carries this (`ErrorField.get_apply`): a call of the field's own builder sets the field, and any
other call leaves it alone.  What calls in a row leave in a field is an induction from the last call
on.  Errors are then equal if the last calls are (`Recipe.build_congr`), so that neighbouring calls
of different builders may be exchanged, and a call may be left out if its builder is called again.

An error may have a source, which may have a source of its own, and so on; `Walks` is following that
to its end.  It can be followed on recipes just as well, from the last source that was given to the
last one that this one was given.  The two walks go side by side (`Cause.source_map_build`), so
whatever came with a source that was replaced is not met again, at any level.

`Recipe.build_lastWritten` puts this together.
-/
import TokenImage.Error.Text
import Mathlib.Data.List.Induction

namespace TokenImage

/-! ## 1. Calls and recipes -/

/-- The builders, by the field that each of them replaces. -/
inductive Builder where
  | message
  | depth
  | source
  deriving DecidableEq

/-- A call of a builder with its argument, over the type `ε` of errors. -/
inductive BuilderCall (ε : Type) where
  | message (text : String)
  | depth (number : UInt64)
  | source (cause : Cause ε)

/-- How an error is made: of a kind, by these calls in order.  The errors among the arguments are
made by recipes of their own. -/
structure Recipe where
  kind : ErrorKind
  calls : List (BuilderCall Recipe)

/-- A cause, with its error turned into another. -/
def Cause.map {ε ε' : Type} (f : ε → ε') : Cause ε → Cause ε'
  | .parseFailed => .parseFailed
  | .other line structureText => .other line structureText
  | .error e => .error (f e)

namespace BuilderCall

variable {ε ε' : Type}

/-- A call, with the error in its argument turned into another. -/
def map (f : ε → ε') : BuilderCall ε → BuilderCall ε'
  | .message text => .message text
  | .depth number => .depth number
  | .source cause => .source (cause.map f)

/-- The builder that is called. -/
def builder : BuilderCall ε → Builder
  | .message _ => .message
  | .depth _ => .depth
  | .source _ => .source

/-- The message that is given, if one is. -/
def message? : BuilderCall ε → Option String
  | .message text => some text
  | .depth _ | .source _ => none

/-- The depth that is given, if one is. -/
def depth? : BuilderCall ε → Option UInt64
  | .depth number => some number
  | .message _ | .source _ => none

/-- The source that is given, if one is. -/
def source? : BuilderCall ε → Option (Cause ε)
  | .source cause => some cause
  | .message _ | .depth _ => none

/-- The call, made on an error. -/
def apply (e : Error) : BuilderCall Error → Error
  | .message text => e.withMessage text
  | .depth number => e.withDepth number
  | .source cause => e.withSource cause

/-- The last call of a builder, if it is called. -/
def last? (b : Builder) (calls : List (BuilderCall ε)) : Option (BuilderCall ε) :=
  (calls.filter (·.builder = b)).getLast?

@[simp] theorem builder_map (f : ε → ε') (call : BuilderCall ε) :
    (call.map f).builder = call.builder := by
  cases call <;> rfl

@[simp] theorem message?_map (f : ε → ε') (call : BuilderCall ε) :
    (call.map f).message? = call.message? := by
  cases call <;> rfl

@[simp] theorem depth?_map (f : ε → ε') (call : BuilderCall ε) :
    (call.map f).depth? = call.depth? := by
  cases call <;> rfl

@[simp] theorem source?_map (f : ε → ε') (call : BuilderCall ε) :
    (call.map f).source? = call.source?.map (Cause.map f) := by
  cases call <;> rfl

end BuilderCall

namespace Recipe

open BuilderCall (last?)

mutual

/-- **An error, made by its recipe**: the calls are made one after the other, from nothing but the
kind on. -/
def build : Recipe → Error
  | ⟨kind, calls⟩ => (madeCalls calls).foldl BuilderCall.apply (.ofKind kind)

/-- Calls, with the errors in their arguments made. -/
def madeCalls : List (BuilderCall Recipe) → List (BuilderCall Error)
  | [] => []
  | .message text :: calls => .message text :: madeCalls calls
  | .depth number :: calls => .depth number :: madeCalls calls
  | .source .parseFailed :: calls => .source .parseFailed :: madeCalls calls
  | .source (.other line structureText) :: calls =>
    .source (.other line structureText) :: madeCalls calls
  | .source (.error r) :: calls => .source (.error (build r)) :: madeCalls calls

end

theorem madeCalls_eq_map (calls : List (BuilderCall Recipe)) :
    madeCalls calls = calls.map (BuilderCall.map build) := by
  induction calls with
  | nil => rfl
  | cons call calls ih =>
    rw [List.map_cons, ← ih]
    obtain text | number | (_ | _ | r) := call <;> rfl

/-- The last source that a recipe gives. -/
def lastSource (r : Recipe) : Option (Cause Recipe) :=
  (last? .source r.calls).bind BuilderCall.source?

end Recipe

/-! ## 2. The last call -/

namespace BuilderCall

variable {ε ε' : Type} {b : Builder}

theorem last?_append (calls later : List (BuilderCall ε)) :
    last? b (calls ++ later) = (last? b later).or (last? b calls) := by
  rw [last?, List.filter_append, List.getLast?_append]
  rfl

theorem last?_singleton (call : BuilderCall ε) :
    last? b [call] = if call.builder = b then some call else none := by
  by_cases hb : call.builder = b
  · rw [last?, List.filter_cons_of_pos (by simpa using hb), if_pos hb]
    rfl
  · rw [last?, List.filter_cons_of_neg (by simpa using hb), if_neg hb]
    rfl

theorem last?_cons (call : BuilderCall ε) (calls : List (BuilderCall ε)) :
    last? b (call :: calls) =
      (last? b calls).or (if call.builder = b then some call else none) := by
  rw [← List.singleton_append, last?_append, last?_singleton]

theorem last?_map (f : ε → ε') (calls : List (BuilderCall ε)) :
    last? b (calls.map (map f)) = (last? b calls).map (map f) := by
  have hfilter : (fun call : BuilderCall ε' => decide (call.builder = b)) ∘ map f =
      fun call => decide (call.builder = b) := by
    funext call
    rw [Function.comp_apply, builder_map]
  rw [last?, last?, List.filter_map, hfilter, List.getLast?_map]

/-- A call of another builder is never the last call of this one. -/
theorem last?_cons_of_ne {call : BuilderCall ε} (h : call.builder ≠ b)
    (calls : List (BuilderCall ε)) : last? b (call :: calls) = last? b calls := by
  rw [last?_cons, if_neg h, Option.or_none]

/-- A builder that is called has a last call. -/
theorem isSome_last?_append_cons {call : BuilderCall ε} (h : call.builder = b)
    (before after : List (BuilderCall ε)) : (last? b (before ++ call :: after)).isSome := by
  rw [last?_append, last?_cons, if_pos h, Option.isSome_or, Option.isSome_or, Option.isSome_some,
    Bool.or_true, Bool.true_or]

/-- Neighbouring calls of different builders may be exchanged. -/
theorem last?_exchange {c d : BuilderCall ε} (h : c.builder ≠ d.builder)
    (before after : List (BuilderCall ε)) :
    last? b (before ++ c :: d :: after) = last? b (before ++ d :: c :: after) := by
  have hpair : last? b (c :: d :: after) = last? b (d :: c :: after) := by
    by_cases hc : c.builder = b
    · have hd : d.builder ≠ b := fun hd => h (hc.trans hd.symm)
      rw [last?_cons, last?_cons_of_ne hd, last?_cons_of_ne hd, last?_cons]
    · rw [last?_cons_of_ne hc, last?_cons, last?_cons, last?_cons_of_ne hc]
  rw [last?_append, last?_append, hpair]

/-- A call may be left out if its builder is called again. -/
theorem last?_overwritten {c d : BuilderCall ε} (h : c.builder = d.builder)
    (before between after : List (BuilderCall ε)) :
    last? b (before ++ c :: (between ++ d :: after)) =
      last? b (before ++ (between ++ d :: after)) := by
  have htail : last? b (c :: (between ++ d :: after)) = last? b (between ++ d :: after) := by
    by_cases hc : c.builder = b
    · rw [last?_cons, Option.or_of_isSome (isSome_last?_append_cons (h ▸ hc) between after)]
    · exact last?_cons_of_ne hc _
  rw [last?_append, last?_append, htail]

end BuilderCall

/-! ## 3. What calls leave in a field -/

open BuilderCall (last?)

/-- **A field and its builder.**  A call of the builder sets the field to what the call gives, and a
call of another builder leaves the field alone. -/
structure ErrorField (α : Type) where
  get : Error → Option α
  builder : Builder
  given? : BuilderCall Error → Option α
  get_ofKind : ∀ kind, get (.ofKind kind) = none
  get_apply : ∀ e call, get (call.apply e) =
    if call.builder = builder then given? call else get e

namespace ErrorField

variable {α : Type}

def message : ErrorField String where
  get := Error.message
  builder := .message
  given? := BuilderCall.message?
  get_ofKind _ := rfl
  get_apply e call := by cases call <;> rfl

def depth : ErrorField UInt64 where
  get := Error.depth
  builder := .depth
  given? := BuilderCall.depth?
  get_ofKind _ := rfl
  get_apply e call := by cases call <;> rfl

def source : ErrorField (Cause Error) where
  get := Error.source
  builder := .source
  given? := BuilderCall.source?
  get_ofKind _ := rfl
  get_apply e call := by cases call <;> rfl

/-- **Calls leave in a field what the last call of its builder gives**, and nothing if there is no
such call. -/
theorem get_foldl (field : ErrorField α) (kind : ErrorKind) (calls : List (BuilderCall Error)) :
    field.get (calls.foldl BuilderCall.apply (.ofKind kind)) =
      (last? field.builder calls).bind field.given? := by
  -- from the last call on, since that is the one that may decide
  induction calls using List.reverseRecOn with
  | nil => exact field.get_ofKind kind
  | append_singleton calls call ih =>
    rw [List.foldl_append, List.foldl_cons, List.foldl_nil, field.get_apply,
      BuilderCall.last?_append, BuilderCall.last?_singleton]
    split_ifs with hbuilder
    · rfl
    · exact ih

end ErrorField

/-- No call changes the kind. -/
theorem BuilderCall.kind_foldl (e : Error) (calls : List (BuilderCall Error)) :
    (calls.foldl BuilderCall.apply e).kind = e.kind := by
  induction calls generalizing e with
  | nil => rfl
  | cons call calls ih =>
    rw [List.foldl_cons, ih]
    cases call <;> rfl

/-! ## 4. Recipes -/

namespace Recipe

/-- The calls of a recipe leave in a field what the last call of its builder gives. -/
theorem get_build {α : Type} (field : ErrorField α) (kind : ErrorKind)
    (calls : List (BuilderCall Recipe)) :
    field.get (build ⟨kind, calls⟩) =
      (last? field.builder calls).bind fun call => field.given? (call.map build) := by
  rw [build, madeCalls_eq_map, field.get_foldl, BuilderCall.last?_map, Option.bind_map]
  rfl

/-- **The last call of each builder counts, and no other.** -/
theorem build_eq (kind : ErrorKind) (calls : List (BuilderCall Recipe)) :
    build ⟨kind, calls⟩ =
      { kind
        message := (last? .message calls).bind BuilderCall.message?
        depth := (last? .depth calls).bind BuilderCall.depth?
        source := ((last? .source calls).bind BuilderCall.source?).map (Cause.map build) } := by
  have hkind : (build ⟨kind, calls⟩).kind = kind := by
    rw [build, BuilderCall.kind_foldl]
    rfl
  have hmessage := get_build .message kind calls
  have hdepth := get_build .depth kind calls
  have hsource := get_build .source kind calls
  simp only [ErrorField.message, ErrorField.depth, ErrorField.source, BuilderCall.message?_map,
    BuilderCall.depth?_map, BuilderCall.source?_map] at hmessage hdepth hsource
  rw [Option.map_bind, Function.comp_def, ← hmessage, ← hdepth, ← hsource]
  -- an error is its fields, but `Error` is recursive, so that this takes its constructor
  generalize build ⟨kind, calls⟩ = e at hkind
  obtain ⟨_, _, _, _⟩ := e
  obtain rfl := hkind
  rfl

/-- Recipes with the same last calls make the same error. -/
theorem build_congr (kind : ErrorKind) {calls calls' : List (BuilderCall Recipe)}
    (h : ∀ b, last? b calls = last? b calls') : build ⟨kind, calls⟩ = build ⟨kind, calls'⟩ := by
  rw [build_eq, build_eq, h, h, h]

end Recipe

/-! ## 5. Walks -/

/-- **A walk to its end**: from `start` on, `next` leads to what is in `met`, in this order, and
there is nothing after it. -/
inductive Walks {α : Type} (next : α → Option α) : (start : Option α) → (met : List α) → Prop
  | done : Walks next none []
  | step {a : α} {met : List α} (h : Walks next (next a) met) : Walks next (some a) (a :: met)

namespace Walks

variable {α β : Type} {next : α → Option α} {next' : β → Option β}

theorem unique {start : Option α} {met met' : List α} (h : Walks next start met)
    (h' : Walks next start met') : met = met' := by
  induction h generalizing met' with
  | done =>
    cases h'
    rfl
  | step _ ih =>
    cases h' with
    | step h' => rw [ih h']

/-- Where one way of going on is the image of another, walks are the images of walks. -/
theorem exists_of_map {f : α → β} (hnext : ∀ a, next' (f a) = (next a).map f) {start : Option α}
    {met' : List β} (h : Walks next' (start.map f) met') :
    ∃ met, Walks next start met ∧ met' = met.map f := by
  generalize hstart : start.map f = start' at h
  induction h generalizing start with
  | done =>
    obtain rfl := Option.map_eq_none_iff.mp hstart
    exact ⟨[], .done, rfl⟩
  | step _ ih =>
    obtain ⟨a, rfl, rfl⟩ := Option.map_eq_some_iff.mp hstart
    obtain ⟨met, hmet, rfl⟩ := ih (hnext a).symm
    exact ⟨a :: met, .step hmet, rfl⟩

end Walks

/-- What a cause came from itself; only an error can have come from something. -/
def Cause.source : Cause Error → Option (Cause Error)
  | .parseFailed => none
  | .other _ _ => none
  | .error e => e.source

/-- The last source that was given to what a recipe came from. -/
def Cause.lastSource : Cause Recipe → Option (Cause Recipe)
  | .parseFailed => none
  | .other _ _ => none
  | .error r => r.lastSource

/-- **The sources of an error come to an end**, and their lines are what is shown of them. -/
theorem Error.exists_walks : ∀ e : Error,
    ∃ met, Walks Cause.source e.source met ∧ e.sources = met.map causeDisplay
  | ⟨_, _, _, none⟩ => ⟨[], .done, rfl⟩
  | ⟨_, _, _, some .parseFailed⟩ => ⟨[.parseFailed], .step .done, rfl⟩
  | ⟨_, _, _, some (.other line structureText)⟩ =>
    ⟨[.other line structureText], .step .done, rfl⟩
  | ⟨_, _, _, some (.error e)⟩ => by
    obtain ⟨met, hmet, hsources⟩ := exists_walks e
    exact ⟨.error e :: met, .step hmet, by rw [sources, hsources, List.map_cons, causeDisplay]⟩

/-- The source of what was made is made from the last source that was given. -/
theorem Cause.source_map_build (cause : Cause Recipe) :
    (cause.map Recipe.build).source = cause.lastSource.map (Cause.map Recipe.build) := by
  cases cause with
  | parseFailed => rfl
  | other line structureText => rfl
  | error r =>
    obtain ⟨kind, calls⟩ := r
    rw [map, source, Recipe.build_eq]
    rfl

/-- **A failed parse ends a walk.** -/
theorem walks_parseFailed_iff {met : List (Cause Error)} :
    Walks Cause.source (some .parseFailed) met ↔ met = [.parseFailed] := by
  constructor
  · intro h
    exact h.unique (.step .done)
  · rintro rfl
    exact .step .done

/-- **The sources of what a recipe makes are what its last source leads to**, along the last
sources. -/
theorem Recipe.exists_walks (r : Recipe) :
    ∃ kept : List (Cause Recipe), Walks Cause.lastSource r.lastSource kept ∧
      (∀ met, Walks Cause.source r.build.source met ↔ met = kept.map (Cause.map build)) ∧
      r.build.sources = kept.map fun cause => Error.causeDisplay (cause.map build) := by
  obtain ⟨met, hmet, hsources⟩ := r.build.exists_walks
  have hsource : r.build.source = r.lastSource.map (Cause.map build) :=
    (Cause.error r).source_map_build
  rw [hsource] at hmet ⊢
  obtain ⟨kept, hkept, rfl⟩ := Walks.exists_of_map Cause.source_map_build hmet
  refine ⟨kept, hkept, fun met => ⟨fun h => h.unique hmet, fun h => h ▸ hmet⟩, ?_⟩
  rw [hsources, List.map_map]
  rfl

/-! ## 6. The line of an error -/

namespace Error

open TokenImage.Text

/-- The line of an error with this kind, message and depth. -/
def line (kind : ErrorKind) (message : Option String) (depth : Option UInt64) : String :=
  kind.name ++ message.elim "" (": " ++ ·) ++
    depth.elim "" fun number => " (depth: " ++ toString number.toNat ++ ")"

/-- **The line of an error tells of its kind, its message and its depth only.** -/
theorem display_eq_line (e : Error) : e.display = line e.kind e.message e.depth := by
  obtain ⟨kind, message, depth, source⟩ := e
  have hnumber : ∀ n rest, writeNat n rest = (toString n).toList ++ rest := fun n rest =>
    congrArg (· ++ rest) String.toList_ofList.symm
  have hclose : ∀ rest, ')' :: rest = ")".toList ++ rest := fun _ => rfl
  rw [display, Writer.text, ← String.toList_inj, String.toList_ofList]
  cases message <;> cases depth <;>
    simp only [writeDisplay, writeText, hnumber, hclose, line, Option.elim, id,
      String.toList_append, String.toList_empty, List.append_assoc, List.append_nil]

end Error

/-! ## 7. Builders -/

namespace Recipe

/-- **Builders write, and the last to write wins.**  Whatever calls of builders an error is made by,
and by whatever calls the errors among their arguments are made:

* the error has the kind that it began with, and what the last call of a builder gave is in the
  field of that builder, or nothing if there is no such call;
* so neighbouring calls of different builders may be exchanged, and a call may be left out if its
  builder is called again;
* following the sources of the error comes to an end, after exactly what was made of the last source
  that was given, of the last source that this one was given, and so on, and the lines of the
  sources are the lines of these;
* a failed parse has no source, and the error for it says that there was no match and has the failed
  parse for its only source;
* the line of an error is made up of its kind, its message and its depth, whatever its source. -/
theorem build_lastWritten :
    (∀ (kind : ErrorKind) (calls : List (BuilderCall Recipe)),
      build ⟨kind, calls⟩ =
        { kind
          message := (last? .message calls).bind BuilderCall.message?
          depth := (last? .depth calls).bind BuilderCall.depth?
          source := ((last? .source calls).bind BuilderCall.source?).map (Cause.map build) }) ∧
    (∀ (kind : ErrorKind) (before after : List (BuilderCall Recipe)) (c d : BuilderCall Recipe),
      c.builder ≠ d.builder →
        build ⟨kind, before ++ c :: d :: after⟩ = build ⟨kind, before ++ d :: c :: after⟩) ∧
    (∀ (kind : ErrorKind) (before between after : List (BuilderCall Recipe))
      (c d : BuilderCall Recipe), c.builder = d.builder →
        build ⟨kind, before ++ c :: (between ++ d :: after)⟩ =
          build ⟨kind, before ++ (between ++ d :: after)⟩) ∧
    (∀ r : Recipe, ∃ kept : List (Cause Recipe), Walks Cause.lastSource r.lastSource kept ∧
      (∀ met, Walks Cause.source r.build.source met ↔ met = kept.map (Cause.map build)) ∧
      r.build.sources = kept.map fun cause => Error.causeDisplay (cause.map build)) ∧
    (∀ met, Walks Cause.source (some .parseFailed) met ↔ met = [.parseFailed]) ∧
    (Error.parseFailed = build ⟨.noMatch, [.source .parseFailed]⟩ ∧
      Error.parseFailed.kind = .noMatch ∧ Error.parseFailed.sources = ["parse failed"]) ∧
    ∀ e : Error, e.display = Error.line e.kind e.message e.depth ∧
      ∀ source, (e.withSource source).display = e.display := by
  refine ⟨build_eq, fun kind before after c d h => ?_, fun kind before between after c d h => ?_,
    exists_walks, fun met => walks_parseFailed_iff, ⟨rfl, rfl, rfl⟩,
    fun e => ⟨e.display_eq_line, ?_⟩⟩
  · exact build_congr kind fun b => BuilderCall.last?_exchange h before after
  · exact build_congr kind fun b => BuilderCall.last?_overwritten h before between after
  · intro source
    rw [Error.display_eq_line, Error.display_eq_line]
    rfl

/-- A recipe that calls each builder twice.  The source that it gives first has a source of its own,
and so has the other one, which was given a source twice too. -/
def reworked : Recipe where
  kind := .depthLimit
  calls :=
    [.message "draft",
      .source (.error ⟨.internal, [.message "lost", .source .parseFailed]⟩),
      .depth 3,
      .message "too deep",
      .source (.error ⟨.noMatch, [.source (.error ⟨.internal, []⟩), .message "kept",
        .source .parseFailed]⟩),
      .depth 65]

/-- Of that recipe the second half is left: its message, its depth, and a chain of two sources.  The
first call may be left out, and the last two calls exchanged. -/
theorem build_reworked :
    reworked.build.display = "DepthLimit: too deep (depth: 65)" ∧
    reworked.build.sources = ["NoMatch: kept", "parse failed"] ∧
    build ⟨.depthLimit, reworked.calls.tail⟩ = reworked.build ∧
    build ⟨.depthLimit, reworked.calls.take 4 ++ (reworked.calls.drop 4).reverse⟩ =
      reworked.build := by
  obtain ⟨hbuild, hexchange, hleaveOut, hwalks, -, -, hline⟩ := build_lastWritten
  refine ⟨?_, ?_, ?_, ?_⟩
  · rw [(hline _).1, reworked, hbuild]
    decide +kernel
  · obtain ⟨kept, hkept, -, hsources⟩ := hwalks reworked
    rw [hsources, hkept.unique (.step (.step .done))]
    decide +kernel
  · exact (hleaveOut .depthLimit [] [_, _] [_, _] _ (.message "too deep") rfl).symm
  · exact hexchange .depthLimit (reworked.calls.take 4) [] (.depth 65) (.source _) (by decide)

end Recipe

end TokenImage
