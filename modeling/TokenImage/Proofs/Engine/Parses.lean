/-
# Parses as calls

A parse is a run and, if the run gave a handle, a look at the result and the release of the handle.
The lemmas say so for `Guard.holding`, whatever is done with the guard, and for the parses of a
session and of a host.  A parse that does not crash gives what is read of the result.
-/
import TokenImage.Session
import TokenImage.Proofs.Engine.Calls

namespace TokenImage

variable {n : Nat} {A : Allocators} {host host' : Host n} {i : Fin n} {script : Script}
  {input : List UInt8} {handle : Nat} {events : List Event}

/-! ## 1. Guards -/

namespace Guard

variable {α : Type}

/-- If the run crashes, nothing more happens. -/
theorem holding_of_crash (body : Guard n → Action (Host n) α) {c : Crash}
    (h : (Host.run A i script input).run host = ⟨.error c, host', events⟩) :
    (holding A i script input body).run host = ⟨.error c, host', events⟩ := by
  have hacquire : (acquire A i script input).run host = ⟨.error c, host', events⟩ :=
    Action.run_bind_of_error h
  exact Action.run_bind_of_error hacquire

/-- If the run gives a handle, the body has its guard, and the handle is released after it. -/
theorem holding_of_handle (body : Guard n → Action (Host n) α)
    (h : (Host.run A i script input).run host = ⟨.ok handle, host', events⟩) :
    (holding A i script input body).run host =
      ⟨((body ⟨i, handle⟩).run host').result,
        ((Host.release i handle).run ((body ⟨i, handle⟩).run host').state).state,
        events ++ (((body ⟨i, handle⟩).run host').events ++
          ((Host.release i handle).run ((body ⟨i, handle⟩).run host').state).events)⟩ := by
  have hacquire : (acquire A i script input).run host = ⟨.ok ⟨i, handle⟩, host', events⟩ := by
    rw [acquire, Action.run_bind_of_ok h]
    simp only [pure, Action.pure, List.append_nil]
  have hrelease := Host.result_release i handle ((body ⟨i, handle⟩).run host').state
  rw [holding, Action.run_bind_of_ok hacquire]
  simp only [Action.ensuring, drop, hrelease]
  cases ((body ⟨i, handle⟩).run host').result <;> rfl

end Guard

/-! ## 2. Sessions -/

namespace Session

variable {s : Session n}

/-- What a session makes of a result in memory, with the events on the way. -/
def outcomeAt (s : Session n) (m : Memory) (handle : Nat) : List Event × Except Error Token :=
  match (⟨s.engine, handle⟩ : Guard n).root? m with
  | none => ([], .error noMatchError)
  | some root => ((s.decoder.decode m root).events, (s.decoder.decode m root).result)

/-- If the run crashes, so does the parse. -/
theorem parse_of_crash {c : Crash}
    (h : (Host.run A s.engine script input).run host = ⟨.error c, host', events⟩) :
    (s.parse A script input).run host = ⟨.error c, host', events⟩ :=
  Action.run_bind_of_error (Guard.holding_of_crash s.readResult h)

/-- **If the run gives a handle, the parse gives what the result says**, and the handle is released. -/
theorem parse_of_handle
    (h : (Host.run A s.engine script input).run host = ⟨.ok handle, host', events⟩) :
    (s.parse A script input).run host =
      ⟨.ok (s.outcomeAt host'.heap.memory handle).2,
        ((Host.release s.engine handle).run host').state,
        events ++ ((s.outcomeAt host'.heap.memory handle).1 ++
          ((Host.release s.engine handle).run host').events) ++
          [closingEvent input.length (s.outcomeAt host'.heap.memory handle).2]⟩ := by
  have hread : (s.readResult ⟨s.engine, handle⟩).run host' =
      ⟨.ok (s.outcomeAt host'.heap.memory handle).2, host',
        (s.outcomeAt host'.heap.memory handle).1⟩ := by
    cases hroot : (⟨s.engine, handle⟩ : Guard n).root? host'.heap.memory with
    | none => simp only [readResult, Action.look, outcomeAt, hroot]
    | some root => simp only [readResult, Action.look, outcomeAt, hroot]
  have hholding := Guard.holding_of_handle s.readResult h
  simp only [hread] at hholding
  rw [parse]
  exact Action.run_bind_of_ok hholding

end Session

/-! ## 3. Hosts -/

namespace Host

/-- A parse without a session is one of a session without a limit, less its error. -/
theorem parse_of_outcome {outcome : Except Error Token}
    (h : ((Session.new i).parse A script input).run host = ⟨.ok outcome, host', events⟩) :
    (Host.parse A i script input).run host = ⟨.ok outcome.toOption, host', events⟩ := by
  rw [Host.parse, Action.run_bind_of_ok h]
  simp only [pure, Action.pure, List.append_nil]

end Host

end TokenImage
