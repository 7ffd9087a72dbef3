/-
# Lists that say what is out

A client that notes every handle it is given, and strikes it out when it gives it back, has a list of
what it has open.  The list tracks a host (`Host.Tracks`) if it says of every handle on every engine
whether it is out there, and names none twice; null handles may stand in it as often as they like.

* `Tracks.run` and `Tracks.release` are the steps of a client that keeps such a list;
* `Tracks.outstanding` counts with it what an engine has out;
* `Tracks.releaseAll` gives everything back.
-/
import TokenImage.Proofs.Engine.ParseCalls
import TokenImage.Scenario.Run

namespace TokenImage

namespace Host

variable {n : Nat} {A : Allocators} {host host' : Host n} {i j : Fin n} {handle : Nat}
  {opened opened' : List (Fin n × Nat)}

/-! ## 1. Tracking -/

/-- **The list says what is out.** -/
structure Tracks (host : Host n) (opened : List (Fin n × Nat)) : Prop where
  nodup : (opened.filter fun h => h.2 ≠ 0).Nodup
  isLive_iff : ∀ {i handle}, handle ≠ 0 → (host.IsLive i handle ↔ (i, handle) ∈ opened)

namespace Tracks

/-- The order of the list does not matter. -/
theorem perm (h : host.Tracks opened) (hp : opened.Perm opened') : host.Tracks opened' :=
  ⟨(hp.filter _).nodup_iff.mp h.nodup, fun h0 => (h.isLive_iff h0).trans hp.mem_iff⟩

/-- Neither does anything of the host but what is out. -/
theorem of_isLive (h : host.Tracks opened)
    (hlive : ∀ i handle, host'.IsLive i handle ↔ host.IsLive i handle) : host'.Tracks opened :=
  ⟨h.nodup, fun h0 => (hlive _ _).trans (h.isLive_iff h0)⟩

/-- **A client that notes what a run gives goes on tracking.** -/
theorem run (ho : host.Owned) (h : host.Tracks opened) {script : Script} {input : List UInt8}
    (hrun : ((Host.run A i script input).run host).result = .ok handle) :
    ((Host.run A i script input).run host).state.Tracks ((i, handle) :: opened) := by
  have hiff : ∀ {j handle'}, handle' ≠ 0 →
      (((Host.run A i script input).run host).state.IsLive j handle' ↔
        (j, handle') ∈ (i, handle) :: opened) := by
    intro j handle' h0
    rw [isLive_run A i script input host j h0, h.isLive_iff h0, List.mem_cons, hrun,
      Except.ok.injEq, or_comm, Prod.mk.injEq, eq_comm (a := i), eq_comm (a := handle)]
  by_cases h0 : handle = 0
  · refine ⟨?_, hiff⟩
    rw [List.filter_cons_of_neg (by simp [h0])]
    exact h.nodup
  · refine ⟨?_, hiff⟩
    rw [List.filter_cons_of_pos (by simp [h0]), List.nodup_cons]
    refine ⟨fun hmem => ?_, h.nodup⟩
    exact not_isLive_of_run ho h0 hrun i ((h.isLive_iff h0).mpr (List.mem_of_mem_filter hmem))

/-- **A client that strikes out what it gives back goes on tracking.** -/
theorem release (ho : host.Owned) (h : host.Tracks ((i, handle) :: opened)) :
    ((Host.release i handle).run host).state.Tracks opened := by
  by_cases hzero : handle = 0
  · subst hzero
    refine ⟨?_, fun {j handle'} h0 => ?_⟩
    · have hnodup := h.nodup
      rwa [List.filter_cons_of_neg (by simp)] at hnodup
    · have hne : (i, 0) ≠ (j, handle') := fun heq => h0 (congrArg Prod.snd heq).symm
      rw [isLive_release ho, h.isLive_iff h0, List.mem_cons]
      simp [hne, hne.symm]
  · have hnodup := h.nodup
    rw [List.filter_cons_of_pos (by simp [hzero]), List.nodup_cons] at hnodup
    refine ⟨hnodup.2, fun {j handle'} h0 => ?_⟩
    rw [isLive_release ho, h.isLive_iff h0, List.mem_cons]
    refine ⟨fun ⟨hmem, hne⟩ => hmem.resolve_left hne.symm, fun hmem => ⟨.inr hmem, fun heq => ?_⟩⟩
    rw [heq] at hnodup
    exact hnodup.1 (List.mem_filter.mpr ⟨hmem, by simp [h0]⟩)

/-! ## 2. What the list is good for -/

/-- **What an engine has out is what the list has of it.** -/
theorem outstanding (ho : host.Owned) (h : host.Tracks opened) (i : Fin n) :
    (host.engine i).outstanding = opened.countP fun h => h.1 = i ∧ h.2 ≠ 0 := by
  have hkeys : (host.engine i).live.keys.Nodup := Std.TreeMap.nodup_keys
  have hnames : ((opened.filter fun h => h.1 = i ∧ h.2 ≠ 0).map Prod.snd).Nodup := by
    refine List.Nodup.map_on (fun a ha b hb hab => ?_) ?_
    · simp only [List.mem_filter, decide_eq_true_eq] at ha hb
      exact Prod.ext (ha.2.1.trans hb.2.1.symm) hab
    · have hsplit : (opened.filter fun h => h.1 = i ∧ h.2 ≠ 0) =
          (opened.filter fun h => h.2 ≠ 0).filter fun h => h.1 = i := by
        rw [List.filter_filter]
        simp
      rw [hsplit]
      exact h.nodup.filter _
  have hperm : (host.engine i).live.keys.Perm
      ((opened.filter fun h => h.1 = i ∧ h.2 ≠ 0).map Prod.snd) := by
    refine (List.perm_ext_iff_of_nodup hkeys hnames).mpr ?_
    intro handle
    rw [Std.TreeMap.mem_keys]
    simp only [List.mem_map, List.mem_filter, decide_eq_true_eq, Prod.exists]
    refine ⟨fun hlive => ?_, ?_⟩
    · have h0 := ho.ne_zero (i := i) hlive
      exact ⟨i, handle, ⟨(h.isLive_iff h0).mp hlive, rfl, h0⟩, rfl⟩
    · rintro ⟨j, handle, ⟨hmem, rfl, h0⟩, rfl⟩
      exact (h.isLive_iff h0).mpr hmem
  rw [Engine.outstanding, ← Std.TreeMap.length_keys, hperm.length_eq, List.length_map,
    List.countP_eq_length_filter]

/-- **Nothing is out when everything open has been released.** -/
theorem releaseAll (ho : host.Owned) (h : host.Tracks opened) (i : Fin n) :
    ((Scenario.releaseAll host opened).engine i).outstanding = 0 := by
  induction opened generalizing host with
  | nil =>
    rw [Scenario.releaseAll, List.foldl_nil, h.outstanding ho]
    rfl
  | cons first opened ih => exact ih (ho.release first.1 first.2) (h.release ho)

end Tracks

theorem tracks_start (n : Nat) : (start n).Tracks [] := by
  refine ⟨List.nodup_nil, fun _ => ?_⟩
  simp [IsLive]

end Host

end TokenImage
