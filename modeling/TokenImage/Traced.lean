/-
# Results with events

A computation that reports events as it goes and ends in a result or in an error.  What was reported
before an error stays reported.
-/
import TokenImage.Event

namespace TokenImage

/-- What was reported, in order, and how it ended. -/
structure Traced (ε α : Type) where
  events : List Event
  result : Except ε α

namespace Traced

variable {ε ε' α β : Type}

/-- A result without events. -/
protected def pure (a : α) : Traced ε α :=
  ⟨[], .ok a⟩

/-- An error without events. -/
def fail (e : ε) : Traced ε α :=
  ⟨[], .error e⟩

/-- One event. -/
def emit (event : Event) : Traced ε Unit :=
  ⟨[event], .ok ()⟩

/-- One computation after another; the second does not happen after an error. -/
protected def bind (x : Traced ε α) (f : α → Traced ε β) : Traced ε β :=
  match x.result with
  | .error e => ⟨x.events, .error e⟩
  | .ok a => ⟨x.events ++ (f a).events, (f a).result⟩

instance : Monad (Traced ε) where
  pure := Traced.pure
  bind := Traced.bind

/-- The same computation with its error put in other terms. -/
def mapError (f : ε → ε') (x : Traced ε α) : Traced ε' α :=
  ⟨x.events, x.result.mapError f⟩

/-- A value that may be missing, with the error that its absence is. -/
def ofOption (e : ε) : Option α → Traced ε α
  | some a => .pure a
  | none => fail e

/-! ## How computations end -/

@[simp] theorem result_pure (a : α) : (pure a : Traced ε α).result = .ok a := rfl

@[simp] theorem result_fail (e : ε) : (fail e : Traced ε α).result = .error e := rfl

@[simp] theorem result_emit (event : Event) : (emit event : Traced ε Unit).result = .ok () := rfl

/-- A sequence ends well when both parts do. -/
theorem result_bind_eq_ok_iff {x : Traced ε α} {f : α → Traced ε β} {b : β} :
    (x >>= f).result = .ok b ↔ ∃ a, x.result = .ok a ∧ (f a).result = .ok b := by
  change (Traced.bind x f).result = .ok b ↔ _
  rw [Traced.bind]
  cases x.result <;> simp

/-- A sequence ends in an error of its first part, or of its second. -/
theorem result_bind_eq_error_iff {x : Traced ε α} {f : α → Traced ε β} {e : ε} :
    (x >>= f).result = .error e ↔
      x.result = .error e ∨ ∃ a, x.result = .ok a ∧ (f a).result = .error e := by
  change (Traced.bind x f).result = .error e ↔ _
  rw [Traced.bind]
  cases x.result <;> simp

/-- What comes second matters for what the first part ends well with only. -/
theorem bind_congr {x : Traced ε α} {f g : α → Traced ε β}
    (h : ∀ a, x.result = .ok a → f a = g a) : x >>= f = x >>= g := by
  change Traced.bind x f = Traced.bind x g
  cases hx : x.result with
  | error e => simp only [Traced.bind, hx]
  | ok a => simp only [Traced.bind, hx, h a hx]

/-- Putting errors in other terms leaves good ends alone. -/
theorem result_mapError_eq_ok_iff {f : ε → ε'} {x : Traced ε α} {a : α} :
    (x.mapError f).result = .ok a ↔ x.result = .ok a := by
  rw [mapError]
  cases x.result with
  | error e => exact ⟨nofun, nofun⟩
  | ok b =>
    change Except.ok b = Except.ok a ↔ Except.ok b = Except.ok a
    rw [Except.ok.injEq, Except.ok.injEq]

theorem result_mapError_of_error {f : ε → ε'} {x : Traced ε α} {e : ε} (h : x.result = .error e) :
    (x.mapError f).result = .error (f e) := by
  rw [mapError, h]
  rfl

@[simp] theorem result_ofOption_eq_ok_iff {e : ε} {o : Option α} {a : α} :
    (ofOption e o).result = .ok a ↔ o = some a := by
  cases o with
  | none => simp [ofOption]
  | some b => simp [ofOption, Traced.pure]

@[simp] theorem result_ofOption_eq_error_iff {e e' : ε} {o : Option α} :
    (ofOption e o).result = .error e' ↔ o = none ∧ e = e' := by
  cases o with
  | none => simp [ofOption]
  | some b => simp [ofOption, Traced.pure]

/-- What follows a value that is there matters for that value only. -/
theorem ofOption_bind_congr {e : ε} {o : Option α} {f g : α → Traced ε β}
    (h : ∀ a, o = some a → f a = g a) : ofOption e o >>= f = ofOption e o >>= g :=
  bind_congr fun a ha => h a (result_ofOption_eq_ok_iff.mp ha)

/-! ## What computations report -/

@[simp] theorem events_pure (a : α) : (pure a : Traced ε α).events = [] := rfl

@[simp] theorem events_fail (e : ε) : (fail e : Traced ε α).events = [] := rfl

@[simp] theorem events_emit (event : Event) : (emit event : Traced ε Unit).events = [event] := rfl

@[simp] theorem events_ofOption (e : ε) (o : Option α) : (ofOption e o).events = [] := by
  cases o <;> rfl

@[simp] theorem events_mapError (f : ε → ε') (x : Traced ε α) : (x.mapError f).events = x.events :=
  rfl

/-- What a sequence reports: first what its first part does, then what its second does. -/
theorem events_bind_of_ok {x : Traced ε α} {f : α → Traced ε β} {a : α} (h : x.result = .ok a) :
    (x >>= f).events = x.events ++ (f a).events := by
  change (Traced.bind x f).events = _
  rw [Traced.bind, h]

/-- A sequence reports nothing after an error. -/
theorem events_bind_of_error {x : Traced ε α} {f : α → Traced ε β} {e : ε}
    (h : x.result = .error e) : (x >>= f).events = x.events := by
  change (Traced.bind x f).events = _
  rw [Traced.bind, h]

/-- What is made of a result in the end is not reported. -/
@[simp] theorem events_bind_pure (x : Traced ε α) (f : α → β) :
    (x >>= fun a => (pure (f a) : Traced ε β)).events = x.events := by
  cases hx : x.result with
  | error e => exact events_bind_of_error hx
  | ok a => rw [events_bind_of_ok hx, events_pure, List.append_nil]

/-- A value that is there goes to what follows. -/
@[simp] theorem ofOption_some_bind (e : ε) (a : α) (f : α → Traced ε β) :
    ofOption e (some a) >>= f = f a := rfl

/-- What a sequence reports comes from its first part, or from its second. -/
theorem mem_events_bind {x : Traced ε α} {f : α → Traced ε β} {event : Event}
    (h : event ∈ (x >>= f).events) :
    event ∈ x.events ∨ ∃ a, x.result = .ok a ∧ event ∈ (f a).events := by
  change event ∈ (Traced.bind x f).events at h
  rw [Traced.bind] at h
  cases hx : x.result with
  | error e =>
    rw [hx] at h
    exact .inl h
  | ok a =>
    rw [hx] at h
    exact (List.mem_append.mp h).imp id fun h => ⟨a, rfl, h⟩

end Traced

end TokenImage
