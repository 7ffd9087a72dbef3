/-
# What calls do to the handles that are out

A run adds the handle that it gives, and a release takes away the one that it names; no call touches
any other (`isLive_run`, `isLive_release`).  A run counts once among the runs of all engines, and a
release does not (`totalRuns_run`, `totalRuns_release`), so that a client can tell from this number
whether a handle may have been given out again.
-/
import TokenImage.Proofs.Engine.Ledger
import TokenImage.Proofs.Engine.Parses

namespace TokenImage

namespace Host

variable {n : Nat} {A : Allocators} {host host' : Host n} {i j : Fin n} {script : Script}
  {input : List UInt8} {handle : Nat} {events : List Event}

/-! ## 1. One call -/

/-- After a change of one engine, the others have the same handles out. -/
theorem isLive_withEngine {f : Engine → Engine} {handle' : Nat} :
    (host.withEngine i f).IsLive j handle' ↔
      if i = j then handle' ∈ (f (host.engine i)).live else host.IsLive j handle' := by
  rw [IsLive, engine_withEngine]
  split
  · rfl
  · rfl

/-- A change that leaves the table alone leaves the same handles out. -/
theorem isLive_withEngine_of_live (f : Engine → Engine) (hf : ∀ e, (f e).live = e.live)
    {handle' : Nat} : (host.withEngine i f).IsLive j handle' ↔ host.IsLive j handle' := by
  rw [isLive_withEngine]
  split
  · rename_i hij
    subst hij
    rw [hf]
    rfl
  · rfl

/-- **A run adds the handle that it gives**, if it gives one. -/
theorem isLive_run (A : Allocators) (i : Fin n) (script : Script) (input : List UInt8)
    (host : Host n) (j : Fin n) {handle' : Nat} (h0 : handle' ≠ 0) :
    ((Host.run A i script input).run host).state.IsLive j handle' ↔
      host.IsLive j handle' ∨
        (i = j ∧ ((Host.run A i script input).run host).result = .ok handle') := by
  rcases run_cases A i script input host with
    ⟨text, hrun⟩ | ⟨failure, hrun⟩ | hrun | ⟨reply, handle, tree, heap, ha, hrun⟩
  · rw [hrun, isLive_withEngine_of_live Engine.countRun fun e => rfl]
    simp
  · rw [hrun, isLive_withEngine_of_live Engine.countRun fun e => rfl]
    simp
  · rw [hrun, isLive_withEngine_of_live Engine.countRun fun e => rfl]
    simp [h0.symm]
  · rw [hrun, isLive_withEngine]
    by_cases hij : i = j
    · subst hij
      simp only [if_pos, Engine.handOut, Engine.countRun, Std.TreeMap.mem_insert,
        Nat.compare_eq_eq, Except.ok.injEq, true_and]
      exact or_comm
    · simp only [hij, false_and, or_false]
      rfl

/-- A handle that is out differs from one that is not. -/
theorem pair_ne_of_isLive (hnot : ¬ host.IsLive i handle) {handle' : Nat}
    (hlive : host.IsLive j handle') : (i, handle) ≠ (j, handle') := by
  intro heq
  obtain ⟨rfl, rfl⟩ := Prod.mk.inj heq
  exact hnot hlive

/-- **A release takes away the handle that it names**, if it is out there. -/
theorem isLive_release (ho : host.Owned) {handle' : Nat} :
    ((Host.release i handle).run host).state.IsLive j handle' ↔
      host.IsLive j handle' ∧ (i, handle) ≠ (j, handle') := by
  have hne : ¬ host.IsLive i handle → (host.IsLive j handle' ↔
      host.IsLive j handle' ∧ (i, handle) ≠ (j, handle')) :=
    fun hnot => ⟨fun hlive => ⟨hlive, pair_ne_of_isLive hnot hlive⟩, And.left⟩
  rcases release_cases i handle host with ⟨rfl, hrun⟩ | ⟨tree, -, hholds, hrun⟩ | ⟨-, hnone, hrun⟩
  · rw [hrun, isLive_withEngine_of_live Engine.countRelease fun e => rfl]
    exact hne fun hlive => ho.ne_zero hlive rfl
  · rw [hrun, isLive_withEngine]
    by_cases hij : i = j
    · subst hij
      simp only [if_pos, Engine.takeBack, Engine.countRelease, Std.TreeMap.mem_erase, ne_eq,
        Nat.compare_eq_eq, Prod.mk.injEq, true_and]
      exact and_comm
    · simp only [ne_eq, Prod.mk.injEq, hij, false_and, not_false_eq_true, and_true]
      rfl
  · rw [hrun, isLive_withEngine_of_live (fun e => e.countRelease.countUnknown) fun e => rfl]
    exact hne (not_isLive_iff.mpr hnone)

/-- A release of what is not out there changes nothing of what is out. -/
theorem isLive_release_of_not_isLive (ho : host.Owned) (hnot : ¬ host.IsLive i handle)
    {handle' : Nat} :
    ((Host.release i handle).run host).state.IsLive j handle' ↔ host.IsLive j handle' := by
  rw [isLive_release ho]
  exact ⟨And.left, fun hlive => ⟨hlive, pair_ne_of_isLive hnot hlive⟩⟩

/-! ## 2. The number of runs -/

/-- The number of runs of engines in a row. -/
def runsOf (engines : List Engine) : Nat :=
  engines.foldr (fun e runs => e.runs + runs) 0

theorem runsOf_set_add {engines : List Engine} {k : Nat} (hk : k < engines.length) (e : Engine) :
    runsOf (engines.set k e) + engines[k].runs = runsOf engines + e.runs := by
  induction engines generalizing k with
  | nil => exact absurd hk (Nat.not_lt_zero k)
  | cons first engines ih =>
    cases k with
    | zero =>
      simp only [runsOf, List.set_cons_zero, List.foldr_cons, List.getElem_cons_zero]
      omega
    | succ k =>
      have := ih (by simpa using hk)
      simp only [runsOf, List.set_cons_succ, List.foldr_cons, List.getElem_cons_succ] at this ⊢
      omega

theorem totalRuns_eq (host : Host n) : host.totalRuns = runsOf host.engines.toList := by
  rw [totalRuns, runsOf, ← Vector.foldr_toList]

theorem totalRuns_withEngine (host : Host n) (i : Fin n) (f : Engine → Engine) :
    (host.withEngine i f).totalRuns + (host.engine i).runs =
      host.totalRuns + (f (host.engine i)).runs := by
  have hk : i.val < host.engines.toList.length := by simp
  have := runsOf_set_add hk (f (host.engine i))
  rw [← Vector.toList_set i.isLt, Vector.getElem_toList] at this
  rw [totalRuns_eq, totalRuns_eq]
  exact this

/-- What an engine counts more, all engines together count more. -/
theorem totalRuns_withEngine_of_runs (host : Host n) (i : Fin n) (f : Engine → Engine) {k : Nat}
    (hf : ∀ e, (f e).runs = e.runs + k) : (host.withEngine i f).totalRuns = host.totalRuns + k := by
  have htotal := totalRuns_withEngine host i f
  rw [hf] at htotal
  omega

/-- Every run counts once. -/
theorem totalRuns_run (A : Allocators) (i : Fin n) (script : Script) (input : List UInt8)
    (host : Host n) :
    ((Host.run A i script input).run host).state.totalRuns = host.totalRuns + 1 := by
  rcases run_cases A i script input host with
    ⟨text, hrun⟩ | ⟨failure, hrun⟩ | hrun | ⟨reply, handle, tree, heap, -, hrun⟩
  · rw [hrun]
    exact totalRuns_withEngine_of_runs host i Engine.countRun fun e => rfl
  · rw [hrun]
    exact totalRuns_withEngine_of_runs host i Engine.countRun fun e => rfl
  · rw [hrun]
    exact totalRuns_withEngine_of_runs host i Engine.countRun fun e => rfl
  · rw [hrun]
    exact totalRuns_withEngine_of_runs { host with heap } i
      (fun e => e.countRun.handOut handle tree) fun e => rfl

/-- No release is a run. -/
theorem totalRuns_release (i : Fin n) (handle : Nat) (host : Host n) :
    ((Host.release i handle).run host).state.totalRuns = host.totalRuns := by
  rcases release_cases i handle host with ⟨-, hrun⟩ | ⟨tree, -, -, hrun⟩ | ⟨-, -, hrun⟩
  · rw [hrun]
    exact totalRuns_withEngine_of_runs (k := 0) host i Engine.countRelease fun e => rfl
  · rw [hrun]
    exact totalRuns_withEngine_of_runs (k := 0)
      { host with heap := host.heap.freeResult handle tree } i
      (fun e => e.countRelease.takeBack handle) fun e => rfl
  · rw [hrun]
    exact totalRuns_withEngine_of_runs (k := 0) host i (fun e => e.countRelease.countUnknown)
      fun e => rfl

end Host

end TokenImage
