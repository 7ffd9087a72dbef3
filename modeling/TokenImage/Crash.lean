/-
# Crashes

What ends an action before its end: something that is raised on purpose, an allocation that cannot be
made, or the crash of a worker that the action waits for.
-/
namespace TokenImage

/-- Why an allocation cannot be made. -/
inductive AllocationFailure where
  /-- What is to be allocated is more than a machine word can count.  The sum of counts is taken to be
  checked; unchecked it would wrap around. -/
  | countOverflow
  /-- What is to be allocated is larger than any block can be. -/
  | tooLarge
  /-- There is no room for it.  A process ends with that; here only the action does. -/
  | outOfMemory
  deriving DecidableEq

namespace AllocationFailure

/-- The text of a failure. -/
def text : AllocationFailure → String
  | .countOverflow => "attempt to add with overflow"
  | .tooLarge => "capacity overflow"
  | .outOfMemory => "memory allocation failed"

/-- What an allocation gave, where having nothing is having found no room. -/
def ofRoom {α : Type} : Option α → Except AllocationFailure α
  | some a => .ok a
  | none => .error .outOfMemory

theorem ofRoom_eq_ok_iff {α : Type} {o : Option α} {a : α} : ofRoom o = .ok a ↔ o = some a := by
  cases o <;> simp [ofRoom]

/-- Allocations one after the other succeed when each of them does. -/
theorem bind_eq_ok_iff {α β : Type} {x : Except AllocationFailure α}
    {f : α → Except AllocationFailure β} {b : β} :
    x >>= f = .ok b ↔ ∃ a, x = .ok a ∧ f a = .ok b := by
  cases x with
  | error failure => exact ⟨nofun, fun ⟨_, h, _⟩ => nomatch h⟩
  | ok a => exact ⟨fun h => ⟨a, rfl, h⟩, fun ⟨_, h, hf⟩ => Except.ok.inj h ▸ hf⟩

end AllocationFailure

/-- Why an action did not come to its end. -/
inductive Crash where
  /-- Something was raised on purpose, with this text. -/
  | panic (text : String)
  /-- An allocation could not be made. -/
  | allocation (failure : AllocationFailure)
  /-- A worker crashed; how it did does not show. -/
  | workerLost
  deriving DecidableEq

/-- The text of a crash. -/
def Crash.text : Crash → String
  | .panic text => text
  | .allocation failure => failure.text
  | .workerLost => "worker: Any \x7b .. \x7d"

end TokenImage
