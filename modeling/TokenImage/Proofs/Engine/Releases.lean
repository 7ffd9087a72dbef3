/-
# Releases by the owner

What a release does to the books of an engine when the engine knows the handle: it warns of nothing,
and counts one release more, but none of what it does not own.  Before it comes what the run did that
gave the handle.

`Host.Shows.ownerReleased` says so of every handle that stands for a reply, null or not.
-/
import TokenImage.Proofs.Engine.Views
import TokenImage.Scenario.Run

namespace TokenImage.Host

variable {n : Nat} {host host' : Host n} {i : Fin n} {handle inputLength : Nat} {reply : Reply}

/-- The counters after a run that gave a handle. -/
theorem counters_run {A : Allocators} {script : Script} {input : List UInt8} (ho : host.Owned)
    (hrun : (Host.run A i script input).run host = ⟨.ok handle, host', []⟩) :
    (host'.engine i).counters =
      { (host.engine i).counters with
        runs := (host.engine i).runs + 1
        outstanding := (host.engine i).outstanding + if handle = 0 then 0 else 1 } := by
  rcases run_cases A i script input host with
    ⟨text, h⟩ | ⟨failure, h⟩ | h | ⟨reply, handle', tree, heap, ha, h⟩
  · exact nomatch h.symm.trans hrun
  · exact nomatch h.symm.trans hrun
  · obtain ⟨hhandle, rfl, -⟩ := Performed.mk.inj (h.symm.trans hrun)
    rw [engine_withEngine_self, if_pos (Except.ok.inj hhandle).symm]
    rfl
  · obtain ⟨hhandle, rfl, -⟩ := Performed.mk.inj (h.symm.trans hrun)
    obtain rfl := Except.ok.inj hhandle
    have hone : ((host.engine i).countRun.handOut handle' tree).outstanding =
        (host.engine i).outstanding + 1 := Engine.outstanding_handOut (ho.not_isLive_new ha i) tree
    rw [engine_withEngine_self, engine_withHeap, if_neg (Nat.ne_of_gt (Heap.handle_pos ha))]
    simp only [Engine.counters, hone]
    rfl

/-- The counters after a release of what the engine has out. -/
theorem counters_release_of_live (h0 : handle ≠ 0) (hlive : host.IsLive i handle) :
    (((Host.release i handle).run host).state.engine i).counters =
      { (host.engine i).counters with
        releases := (host.engine i).releases + 1
        outstanding := (host.engine i).outstanding - 1 } := by
  obtain ⟨tree, hholds⟩ := isLive_iff.mp hlive
  have hout : handle ∈ (host.engine i).countRelease.live := hlive
  have hone := Engine.outstanding_takeBack hout
  have hsame : (host.engine i).countRelease.outstanding = (host.engine i).outstanding := rfl
  have hback : ((host.engine i).countRelease.takeBack handle).outstanding =
      (host.engine i).outstanding - 1 := by omega
  rw [release_of_live h0 hholds, engine_withEngine_self, engine_withHeap]
  simp only [Engine.counters, hback]
  rfl

/-- **A release by the owner**: nothing is warned of, and the engine counts one release more, but none
of what it does not own.  The handle was out, unless it is null, and is not out any more. -/
structure OwnerReleased (host host' : Host n) (i : Fin n) (handle : Nat) (events : List Event) :
    Prop where
  silent : events = []
  counters : (host'.engine i).counters =
    { (host.engine i).counters with
      releases := (host.engine i).releases + 1
      outstanding := (host.engine i).outstanding - if handle = 0 then 0 else 1 }
  others : ∀ j, j ≠ i → host'.engine j = host.engine j
  wasLive : handle ≠ 0 → host.IsLive i handle
  gone : ∀ j, ¬ host'.IsLive j handle

/-- **The release of a handle that stands for a reply is one by its owner.** -/
theorem Shows.ownerReleased (h : host.Shows i handle reply inputLength) (ho : host.Owned) :
    host.OwnerReleased ((Host.release i handle).run host).state i handle
      ((Host.release i handle).run host).events := by
  have hothers : ∀ j, j ≠ i → ((Host.release i handle).run host).state.engine j = host.engine j :=
    fun j hj => engines_release_of_ne (Ne.symm hj) handle
  have hgone : ∀ j, ¬ ((Host.release i handle).run host).state.IsLive j handle := by
    intro j hlive
    obtain ⟨hlive, hne⟩ := (isLive_release ho).mp hlive
    exact hne (by rw [ho.eq_of_isLive (h.isLive (ho.ne_zero hlive)) hlive])
  by_cases h0 : handle = 0
  · subst h0
    refine ⟨by rw [release_zero], ?_, hothers, fun hne => absurd rfl hne, hgone⟩
    rw [release_zero, engine_withEngine_self]
    rfl
  · have hlive := h.isLive h0
    obtain ⟨tree, hholds⟩ := isLive_iff.mp hlive
    refine ⟨by rw [release_of_live h0 hholds], ?_, hothers, fun _ => hlive, hgone⟩
    rw [counters_release_of_live h0 hlive, if_neg h0]

end TokenImage.Host
