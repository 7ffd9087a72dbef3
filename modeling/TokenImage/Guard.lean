/-
# Guards

A guard is the one owner of a result: it is acquired by a run and releases the handle when it is
dropped, a null handle too.  `holding` gives an action the use of a guard and drops it on every way
out.
-/
import TokenImage.Engine

namespace TokenImage

/-- The owner of a handle that an engine has handed out. -/
structure Guard (n : Nat) where
  engine : Fin n
  handle : Nat

namespace Guard

variable {n : Nat} {α : Type}

/-! ## 1. What a guard shows -/

/-- Whether there is no result. -/
def isNull (g : Guard n) : Bool :=
  g.handle == 0

/-- The root of the result; there is none without a match. -/
def root? (g : Guard n) (m : Memory) : Option Nat :=
  if g.handle = 0 then none
  else (m.resultRoot g.handle).filter (· ≠ 0)

/-- The bits of input that the engine took, where there is a result. -/
def bitLength? (g : Guard n) (m : Memory) : Option Int64 :=
  if g.handle = 0 then none
  else m.resultBitLength g.handle

/-! ## 2. Acquiring and dropping -/

/-- The guard of the result of a run. -/
def acquire (A : Allocators) (i : Fin n) (script : Script) (input : List UInt8) :
    Action (Host n) (Guard n) := do
  let handle ← Host.run A i script input
  pure ⟨i, handle⟩

/-- The end of a guard: its handle is released. -/
def drop (g : Guard n) : Action (Host n) Unit :=
  Host.release g.engine g.handle

/-- **An action with a guard of its own,** which is dropped however the action ends. -/
def holding (A : Allocators) (i : Fin n) (script : Script) (input : List UInt8)
    (body : Guard n → Action (Host n) α) : Action (Host n) α := do
  let g ← acquire A i script input
  (body g).ensuring g.drop

end Guard

end TokenImage
