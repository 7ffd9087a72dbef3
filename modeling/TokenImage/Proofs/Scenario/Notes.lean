/-
# What clients note

Clients keep guards and raw handles under names, and strike a raw handle out when its owner has
released it.  Their notes are true of the host (`Faithful`): what is open in them is what is out,
and a raw handle that was released stays gone for as long as no engine runs.  The second part is why
a release of it once more does no harm, while after another run the same address may be somebody
else's handle.

`Faithful.noted` is the step: whatever a client does, its notes stay true.
-/
import TokenImage.Proofs.Engine.Tracking
import TokenImage.Proofs.Scenario.Calls

namespace TokenImage

/-! ## 1. Lists with names -/

section Named

variable {α : Type} {l : List (String × α)} {name : String} {a : α}

theorem not_mem_names_of_lookup (h : l.lookup name = none) : name ∉ l.map Prod.fst := by
  intro hmem
  obtain ⟨entry, hentry, rfl⟩ := List.mem_map.mp hmem
  have hne := List.lookup_eq_none_iff.mp h entry hentry
  simp at hne

theorem filter_names_of_not_mem (h : name ∉ l.map Prod.fst) :
    (l.filter fun entry => entry.1 ≠ name) = l := by
  refine List.filter_eq_self.mpr fun entry hentry => decide_eq_true fun heq => h ?_
  exact List.mem_map.mpr ⟨entry, hentry, heq⟩

/-- Where no name occurs twice, there are the entry that a name finds and the entries with other
names. -/
theorem perm_cons_filter_of_lookup (hnodup : (l.map Prod.fst).Nodup) (h : l.lookup name = some a) :
    l.Perm ((name, a) :: l.filter fun entry => entry.1 ≠ name) := by
  induction l with
  | nil => exact nomatch h
  | cons entry l ih =>
    obtain ⟨other, b⟩ := entry
    rw [List.map_cons, List.nodup_cons] at hnodup
    by_cases hname : name = other
    · subst hname
      rw [List.lookup_cons_self] at h
      obtain rfl := Option.some.inj h
      rw [List.filter_cons_of_neg (by simp), filter_names_of_not_mem hnodup.1]
    · rw [List.lookup_cons, beq_eq_false_iff_ne.mpr hname] at h
      rw [List.filter_cons_of_pos (by simp [Ne.symm hname])]
      exact ((ih hnodup.2 h).cons _).trans (List.Perm.swap _ _ _)

theorem nodup_names_filter (p : String × α → Bool) (h : (l.map Prod.fst).Nodup) :
    ((l.filter p).map Prod.fst).Nodup :=
  h.sublist (List.filter_sublist.map Prod.fst)

theorem nodup_names_cons_filter (a : α) (h : (l.map Prod.fst).Nodup) :
    (((name, a) :: l.filter fun entry => entry.1 ≠ name).map Prod.fst).Nodup := by
  rw [List.map_cons, List.nodup_cons]
  refine ⟨fun hmem => ?_, nodup_names_filter _ h⟩
  obtain ⟨entry, hentry, heq⟩ := List.mem_map.mp hmem
  exact of_decide_eq_true (List.mem_filter.mp hentry).2 heq

end Named

/-! ## 2. What is open -/

variable {n : Nat} {A : Allocators} {host host' : Host n} {guards : List (String × Guard n)}
  {handles handles' : List (String × RawHandle n)} {name : String} {guard : Guard n}
  {raw : RawHandle n}

/-- What is open by the notes: the guards, and the raw handles that their owners have not
released. -/
def openIn (guards : List (String × Guard n)) (handles : List (String × RawHandle n)) :
    List (Fin n × Nat) :=
  guards.map (fun entry => (entry.2.engine, entry.2.handle)) ++
    (handles.filter fun entry => entry.2.releasedAt.isNone).map fun entry =>
      (entry.2.engine, entry.2.handle)

/-- A guard that is dropped was open. -/
theorem openIn_perm_of_guard (hnodup : (guards.map Prod.fst).Nodup)
    (hname : guards.lookup name = some guard) :
    (openIn guards handles).Perm ((guard.engine, guard.handle) ::
      openIn (guards.filter fun entry => entry.1 ≠ name) handles) :=
  ((perm_cons_filter_of_lookup hnodup hname).map _).append_right _

theorem openIn_perm (guards : List (String × Guard n)) (hp : handles.Perm handles') :
    (openIn guards handles).Perm (openIn guards handles') :=
  ((hp.filter _).map _).append_left _

/-- A raw handle that its owner has not released is open. -/
theorem openIn_cons_of_none (h : raw.releasedAt = none) :
    (openIn guards ((name, raw) :: handles)).Perm
      ((raw.engine, raw.handle) :: openIn guards handles) := by
  rw [openIn, List.filter_cons_of_pos (by simp [h])]
  exact List.perm_middle

/-- A raw handle that its owner has released is not. -/
theorem openIn_cons_of_some {runs : Nat} (h : raw.releasedAt = some runs) :
    openIn guards ((name, raw) :: handles) = openIn guards handles := by
  rw [openIn, List.filter_cons_of_neg (by simp [h])]
  rfl

/-! ## 3. Faithful notes -/

/-- A raw handle that was released is gone, at least until the next run. -/
def RawHandle.Settled (raw : RawHandle n) (host : Host n) : Prop :=
  ∀ runs, raw.releasedAt = some runs → runs ≤ host.totalRuns ∧
    (runs = host.totalRuns → ∀ j, ¬ host.IsLive j raw.handle)

/-- What is settled stays so if handles come back without runs. -/
theorem RawHandle.Settled.mono (h : raw.Settled host) (hruns : host.totalRuns ≤ host'.totalRuns)
    (hlive : host.totalRuns = host'.totalRuns → ∀ j handle, host'.IsLive j handle →
      host.IsLive j handle) : raw.Settled host' := by
  intro runs hreleased
  obtain ⟨hle, hgone⟩ := h runs hreleased
  refine ⟨Nat.le_trans hle hruns, fun heq j hout => ?_⟩
  have hsame : host.totalRuns = host'.totalRuns := by omega
  exact hgone (heq.trans hsame.symm) j (hlive hsame j _ hout)

/-- **The notes of a client are true of a host.** -/
structure Faithful (host : Host n) (guards : List (String × Guard n))
    (handles : List (String × RawHandle n)) : Prop where
  owned : host.Owned
  guardNames : (guards.map Prod.fst).Nodup
  handleNames : (handles.map Prod.fst).Nodup
  tracks : host.Tracks (openIn guards handles)
  settled : ∀ entry ∈ handles, entry.2.Settled host

theorem faithful_start (n : Nat) : Faithful (Host.start n) [] [] where
  owned := Host.owned_start n
  guardNames := List.nodup_nil
  handleNames := List.nodup_nil
  tracks := Host.tracks_start n
  settled := fun _ hentry => absurd hentry List.not_mem_nil

namespace Faithful

variable {s : ClientState n} {cs : List (Call n)} {i : Fin n}

/-- A raw handle that was released, and that is not stale, is not out anywhere. -/
theorem not_isLive_of_released (h : Faithful host guards handles)
    (hname : handles.lookup name = some raw) (hfresh : Step.isStale raw host = false) {runs : Nat}
    (hreleased : raw.releasedAt = some runs) (j : Fin n) : ¬ host.IsLive j raw.handle := by
  intro hlive
  have hmem : (name, raw) ∈ handles :=
    (perm_cons_filter_of_lookup h.handleNames hname).mem_iff.mpr List.mem_cons_self
  have h0 : raw.handle ≠ 0 := h.owned.ne_zero hlive
  have hruns : runs = host.totalRuns := by
    rw [Step.isStale, hreleased] at hfresh
    simpa [h0] using hfresh
  exact (h.settled _ hmem runs hreleased).2 hruns j hlive

/-- A raw handle that was not released is out on its engine, unless it is null. -/
theorem isLive_of_open (h : Faithful host guards handles)
    (hname : handles.lookup name = some raw) (hopen : raw.releasedAt = none)
    (h0 : raw.handle ≠ 0) : host.IsLive raw.engine raw.handle := by
  refine (h.tracks.isLive_iff h0).mpr ?_
  have hp := (openIn_perm guards (perm_cons_filter_of_lookup h.handleNames hname)).trans
    (openIn_cons_of_none hopen)
  exact hp.mem_iff.mpr List.mem_cons_self

/-- So it is out nowhere else. -/
theorem not_isLive_of_ne (h : Faithful host guards handles)
    (hname : handles.lookup name = some raw) (hfresh : Step.isStale raw host = false)
    (hi : i ≠ raw.engine) : ¬ host.IsLive i raw.handle := by
  intro hlive
  cases hreleased : raw.releasedAt with
  | none =>
    have hown := h.isLive_of_open hname hreleased (h.owned.ne_zero hlive)
    exact hi (h.owned.eq_of_isLive hlive hown)
  | some runs => exact h.not_isLive_of_released hname hfresh hreleased i hlive

/-! ## 4. Steps -/

/-- Parses need no notes. -/
theorem parses (h : Faithful host guards handles) (hp : host.Parses A cs) :
    Faithful (host.calls A cs).2 guards handles where
  owned := h.owned.calls A cs
  guardNames := h.guardNames
  handleNames := h.handleNames
  tracks := h.tracks.of_isLive fun _ _ => hp.isLive_iff h.owned
  settled := fun entry hentry => (h.settled entry hentry).mono hp.totalRuns_le
    fun _ _ _ hlive => (hp.isLive_iff h.owned).mp hlive

section Run

variable {script : Script} {input : List UInt8} {handle : Nat}

/-- A run leaves settled what was settled; it may hand the handle out again, but it counts. -/
theorem settled_run (h : Faithful host guards handles) (i : Fin n) (script : Script)
    (input : List UInt8) :
    ∀ entry ∈ handles, entry.2.Settled ((Host.run A i script input).run host).state := by
  intro entry hentry
  have hruns := Host.totalRuns_run A i script input host
  refine (h.settled entry hentry).mono ?_ fun heq => ?_
  · omega
  · omega

/-- A new guard is noted. -/
theorem acquired (h : Faithful host guards handles) (hfree : guards.lookup name = none)
    (hrun : ((Host.run A i script input).run host).result = .ok handle) :
    Faithful ((Host.run A i script input).run host).state ((name, ⟨i, handle⟩) :: guards)
      handles where
  owned := h.owned.run A i script input
  guardNames := List.nodup_cons.mpr ⟨not_mem_names_of_lookup hfree, h.guardNames⟩
  handleNames := h.handleNames
  tracks := h.tracks.run h.owned hrun
  settled := h.settled_run i script input

/-- A new raw handle is noted. -/
theorem handed (h : Faithful host guards handles) (hfree : handles.lookup name = none)
    (hrun : ((Host.run A i script input).run host).result = .ok handle) :
    Faithful ((Host.run A i script input).run host).state guards
      ((name, ⟨i, handle, none⟩) :: handles.filter fun entry => entry.1 ≠ name) := by
  have hnot := not_mem_names_of_lookup hfree
  rw [filter_names_of_not_mem hnot]
  refine ⟨h.owned.run A i script input, h.guardNames, ?_, ?_, ?_⟩
  · exact List.nodup_cons.mpr ⟨hnot, h.handleNames⟩
  · have hopen : (⟨i, handle, none⟩ : RawHandle n).releasedAt = none := rfl
    exact (h.tracks.run h.owned hrun).perm (openIn_cons_of_none hopen).symm
  · intro entry hentry
    rcases List.mem_cons.mp hentry with rfl | hold
    · exact fun runs hreleased => nomatch hreleased
    · exact h.settled_run i script input entry hold

end Run

section Release

variable {handle : Nat}

/-- A release leaves settled what was settled. -/
theorem settled_release (h : Faithful host guards handles) (i : Fin n) (handle : Nat) :
    ∀ entry ∈ handles, entry.2.Settled ((Host.release i handle).run host).state := by
  intro entry hentry
  refine (h.settled entry hentry).mono (Nat.le_of_eq (Host.totalRuns_release i handle host).symm) ?_
  exact fun _ j other hlive => ((Host.isLive_release h.owned).mp hlive).1

/-- A release of what is not out there needs no note. -/
theorem offered (h : Faithful host guards handles) (hnot : ¬ host.IsLive i handle) :
    Faithful ((Host.release i handle).run host).state guards handles where
  owned := h.owned.release i handle
  guardNames := h.guardNames
  handleNames := h.handleNames
  tracks := h.tracks.of_isLive fun _ _ => Host.isLive_release_of_not_isLive h.owned hnot
  settled := h.settled_release i handle

/-- A guard that is dropped is struck out. -/
theorem dropped (h : Faithful host guards handles) (hname : guards.lookup name = some guard) :
    Faithful ((Host.release guard.engine guard.handle).run host).state
      (guards.filter fun entry => entry.1 ≠ name) handles where
  owned := h.owned.release guard.engine guard.handle
  guardNames := nodup_names_filter _ h.guardNames
  handleNames := h.handleNames
  tracks := (h.tracks.perm (openIn_perm_of_guard h.guardNames hname)).release h.owned
  settled := h.settled_release guard.engine guard.handle

/-- What an engine takes back is out nowhere. -/
theorem not_isLive_after_release (h : Faithful host guards handles)
    (hname : handles.lookup name = some raw) (hfresh : Step.isStale raw host = false) (j : Fin n) :
    ¬ ((Host.release raw.engine raw.handle).run host).state.IsLive j raw.handle := by
  intro hlive
  rw [Host.isLive_release h.owned] at hlive
  by_cases hj : j = raw.engine
  · subst hj
    exact hlive.2 rfl
  · exact h.not_isLive_of_ne hname hfresh hj hlive.1

/-- **A raw handle that its owner releases is struck out**, also if that has happened before. -/
theorem released (h : Faithful host guards handles) (hname : handles.lookup name = some raw)
    (hfresh : Step.isStale raw host = false) :
    Faithful ((Host.release raw.engine raw.handle).run host).state guards
      ((name, { raw with releasedAt := some host.totalRuns }) ::
        handles.filter fun entry => entry.1 ≠ name) := by
  have hp := perm_cons_filter_of_lookup h.handleNames hname
  refine ⟨h.owned.release raw.engine raw.handle, h.guardNames, ?_, ?_, ?_⟩
  · exact nodup_names_cons_filter _ h.handleNames
  · rw [openIn_cons_of_some rfl]
    have htracks := h.tracks.perm (openIn_perm guards hp)
    cases hreleased : raw.releasedAt with
    | none => exact (htracks.perm (openIn_cons_of_none hreleased)).release h.owned
    | some runs =>
      have hgone := h.not_isLive_of_released hname hfresh hreleased raw.engine
      rw [openIn_cons_of_some hreleased] at htracks
      exact htracks.of_isLive fun _ _ => Host.isLive_release_of_not_isLive h.owned hgone
  · intro entry hentry
    rcases List.mem_cons.mp hentry with rfl | hold
    · intro runs hruns
      obtain rfl := Option.some.inj hruns
      have hsame := Host.totalRuns_release raw.engine raw.handle host
      exact ⟨Nat.le_of_eq hsame.symm, fun _ => h.not_isLive_after_release hname hfresh⟩
    · exact h.settled_release raw.engine raw.handle entry (List.mem_of_mem_filter hold)

end Release

/-- **The notes of a client stay true**, whatever it does. -/
theorem noted (h : Faithful s.host s.guards s.handles)
    (hnoted : s.Noted A cs guards handles) : Faithful (s.host.calls A cs).2 guards handles := by
  cases hnoted with
  | parses hp => exact h.parses hp
  | acquired hfree hrun => exact h.acquired hfree hrun
  | dropped hname => exact h.dropped hname
  | handed hfree hrun => exact h.handed hfree hrun
  | released hname hfresh => exact h.released hname hfresh
  | offered hname hfresh hi => exact h.offered (h.not_isLive_of_ne hname hfresh hi)
  | releasedNull => exact h.offered fun hlive => h.owned.ne_zero hlive rfl

end Faithful

end TokenImage
