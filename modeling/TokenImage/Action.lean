/-
# Actions

An action changes a state, reports events, and ends in a result or crashes.  A crash keeps what the
action has done to the state up to then, and `ensuring` runs its cleanup after a crash as well.
-/
import TokenImage.Crash
import TokenImage.Traced

namespace TokenImage

/-- What an action did: how it ended, the state after it and the events on the way. -/
structure Performed (σ α : Type) where
  result : Except Crash α
  state : σ
  events : List Event := []

/-- Something that is done to a state of type `σ` and gives an `α`. -/
structure Action (σ α : Type) where
  run : σ → Performed σ α

namespace Action

variable {σ τ α β : Type}

/-- A result, with nothing done. -/
protected def pure (a : α) : Action σ α :=
  ⟨fun s => ⟨.ok a, s, []⟩⟩

/-- One action after another; the second does not happen after a crash. -/
protected def bind (x : Action σ α) (f : α → Action σ β) : Action σ β :=
  ⟨fun s =>
    let first := x.run s
    match first.result with
    | .error c => ⟨.error c, first.state, first.events⟩
    | .ok a =>
      let second := (f a).run first.state
      ⟨second.result, second.state, first.events ++ second.events⟩⟩

instance : Monad (Action σ) where
  pure := Action.pure
  bind := Action.bind

/-- A crash, with nothing done. -/
def crash (c : Crash) : Action σ α :=
  ⟨fun s => ⟨.error c, s, []⟩⟩

/-- The state. -/
def current : Action σ σ :=
  ⟨fun s => ⟨.ok s, s, []⟩⟩

/-- A change of the state. -/
def change (f : σ → σ) : Action σ Unit :=
  ⟨fun s => ⟨.ok (), f s, []⟩⟩

/-- One event. -/
def emit (event : Event) : Action σ Unit :=
  ⟨fun s => ⟨.ok (), s, [event]⟩⟩

/-- A look at the state that reports events. -/
def look (f : σ → List Event × α) : Action σ α :=
  ⟨fun s => ⟨.ok (f s).2, s, (f s).1⟩⟩

/-- An action with a cleanup that follows it however it ends; a crash of the action comes before one
of the cleanup. -/
def ensuring (x : Action σ α) (cleanup : Action σ Unit) : Action σ α :=
  ⟨fun s =>
    let first := x.run s
    let last := cleanup.run first.state
    let result := match first.result, last.result with
      | .error c, _ => .error c
      | .ok _, .error c => .error c
      | .ok a, .ok () => .ok a
    ⟨result, last.state, first.events ++ last.events⟩⟩

/-- An action whose crash is a result, so that what follows it still happens. -/
def attempt (x : Action σ α) : Action σ (Except Crash α) :=
  ⟨fun s =>
    let done := x.run s
    ⟨.ok done.result, done.state, done.events⟩⟩

/-- An action on a part of the state. -/
def focus (get : σ → τ) (set : τ → σ → σ) (x : Action τ α) : Action σ α :=
  ⟨fun s =>
    let done := x.run (get s)
    ⟨done.result, set done.state s, done.events⟩⟩

/-- An action without its events. -/
def silently (x : Action σ α) : Action σ α :=
  ⟨fun s => { x.run s with events := [] }⟩

/-! ## How sequences run -/

/-- After a result the second action runs, on the state that the first has left. -/
theorem run_bind_of_ok {x : Action σ α} {f : α → Action σ β} {s s' : σ} {a : α}
    {events : List Event} (h : x.run s = ⟨.ok a, s', events⟩) :
    (x >>= f).run s =
      ⟨((f a).run s').result, ((f a).run s').state, events ++ ((f a).run s').events⟩ := by
  change (Action.bind x f).run s = _
  simp only [Action.bind, h]

/-- After a crash nothing more happens. -/
theorem run_bind_of_error {x : Action σ α} {f : α → Action σ β} {s s' : σ} {c : Crash}
    {events : List Event} (h : x.run s = ⟨.error c, s', events⟩) :
    (x >>= f).run s = ⟨.error c, s', events⟩ := by
  change (Action.bind x f).run s = _
  simp only [Action.bind, h]

/-- A question for the state is answered by the state. -/
theorem run_current_bind (f : σ → Action σ α) (s : σ) : (current >>= f).run s = (f s).run s := rfl

/-- A result that is put in other terms leaves the rest alone. -/
theorem run_bind_pure (x : Action σ α) (f : α → β) (s : σ) :
    (x >>= fun a => pure (f a)).run s =
      ⟨(x.run s).result.map f, (x.run s).state, (x.run s).events⟩ := by
  rcases hrun : x.run s with ⟨result, state, events⟩
  cases result with
  | error c =>
    rw [run_bind_of_error hrun]
    rfl
  | ok a =>
    rw [run_bind_of_ok hrun]
    simp only [pure, Action.pure, List.append_nil, Except.map]

/-- An attempt does what the action does, and never crashes. -/
theorem run_attempt_of_events {x : Action σ α} {s : σ} {events : List Event}
    (h : (x.run s).events = events) :
    x.attempt.run s = ⟨.ok (x.run s).result, (x.run s).state, events⟩ := by
  rw [← h]
  rfl

end Action

end TokenImage
