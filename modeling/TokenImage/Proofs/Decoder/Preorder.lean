/-
# What is reported, and in which order

A decoder reports the tokens whose tags it cannot read, each when it comes to it.  It comes to the
pointers in preorder, once for each path to them, so the events of a decoding can be read off the
graph: list the visits in preorder and take down what each is reported as (`reportAt`).  A token that
is shared is reported once for each path to it.

`decode_reports` says so of all decoders.  A limit cuts the list off where the first pointer stands
that is one deeper than the limit, null or not; so a limited decoder reports a first part of what an
unlimited one does, and all of it if nothing is too deep.

The walk is followed once, by induction on its room (`walk_visits`).  The slots of a sequence are an
induction of their own, on how many are left (`readSlots_visits`): the visits from a slot on are those
below the slot and, if nothing below it is too deep, those from the next slot on.
-/
import TokenImage.Proofs.Decoder.Events
import TokenImage.Proofs.Decoder.Limit

namespace TokenImage

namespace Memory

variable {m : Memory}

/-! ## 1. What a token is reported as -/

/-- What a decoder reports of the token at a pointer: a tag that is none of the five, with the index
as it stands there. -/
def reportAt (m : Memory) (p : Nat) : Option Event :=
  if p = 0 then none
  else do
    let tag ← m.tokenTag p
    let index ← m.tokenIndex p
    if tag.toNat ∈ [1, 2, 4, 8, 16] then none else some (.unsupportedTag tag index)

/-- Where the header of a token is mapped, its tag decides whether it is reported. -/
theorem reportAt_eq {p : Nat} {tag : Tag} {index : UInt64} (hp : p ≠ 0)
    (ht : m.tokenTag p = some tag) (hi : m.tokenIndex p = some index) :
    m.reportAt p =
      if tag.toNat ∈ [1, 2, 4, 8, 16] then none else some (.unsupportedTag tag index) := by
  rw [reportAt, if_neg hp, ht, hi]
  rfl

/-- **What is reported** is a debug event with the tag and the index, both as they stand there. -/
theorem reportAt_eq_some {p : Nat} {event : Event} (h : m.reportAt p = some event) :
    event.level = .debug ∧ ∃ tag index : Nat, m.NumberAt p 4 tag ∧ m.NumberAt (p + 24) 8 index ∧
      tag ∉ [1, 2, 4, 8, 16] ∧
      event.fields = [("tag", tag.repr), ("byte_offset", index.repr)] := by
  rw [reportAt] at h
  by_cases hp : p = 0
  · rw [if_pos hp] at h
    cases h
  rw [if_neg hp] at h
  obtain ⟨tag, ht, h⟩ := Option.bind_eq_some_iff.mp h
  obtain ⟨index, hi, h⟩ := Option.bind_eq_some_iff.mp h
  by_cases hk : tag.toNat ∈ [1, 2, 4, 8, 16]
  · rw [if_pos hk] at h
    cases h
  rw [if_neg hk, Option.some.injEq] at h
  subst h
  exact ⟨rfl, tag.toNat, index.toNat, tokenTag_eq_some_iff.mp ht, tokenIndex_eq_some_iff.mp hi, hk,
    rfl⟩

/-! ## 2. Visits in preorder -/

/-- The list has the visits that `P` describes, all of them and each once, in preorder. -/
structure InPreorder (visits : List (List Nat × Nat)) (P : List Nat → Nat → Prop) : Prop where
  ascending : visits.Pairwise fun v w => v.1 < w.1
  mem_iff : ∀ path p, (path, p) ∈ visits ↔ P path p

section InPreorder

variable {visits visits' : List (List Nat × Nat)} {P P' Q : List Nat → Nat → Prop}

theorem InPreorder.congr (h : InPreorder visits P) (hP : ∀ path p, P path p ↔ P' path p) :
    InPreorder visits P' :=
  ⟨h.ascending, fun path p => (h.mem_iff path p).trans (hP path p)⟩

/-- Nothing is visited. -/
theorem InPreorder.nil (h : ∀ path p, ¬ P path p) : InPreorder [] P :=
  ⟨.nil, fun path p => (iff_false_left List.not_mem_nil).mpr (h path p)⟩

/-- The root comes before all that is below it. -/
theorem InPreorder.cons_root {a : Nat} (h : InPreorder visits Q)
    (hne : ∀ path p, Q path p → path ≠ []) :
    InPreorder (([], a) :: visits) fun path p => path = [] ∧ p = a ∨ Q path p := by
  refine ⟨List.pairwise_cons.mpr ⟨?_, h.ascending⟩, fun path p => ?_⟩
  · rintro ⟨path, p⟩ hv
    cases path with
    | nil => exact absurd rfl (hne [] p ((h.mem_iff [] p).mp hv))
    | cons i path => exact List.nil_lt_cons i path
  · rw [List.mem_cons, h.mem_iff, Prod.mk.injEq]

/-- What is below one slot comes before what is below later ones. -/
theorem InPreorder.append_slot {i : Nat} (h : InPreorder visits P) (h' : InPreorder visits' Q)
    (hlater : ∀ path p, Q path p → ∃ j path', path = j :: path' ∧ i < j) :
    InPreorder (visits.map (fun v => (i :: v.1, v.2)) ++ visits')
      fun path p => (∃ path', path = i :: path' ∧ P path' p) ∨ Q path p := by
  refine ⟨List.pairwise_append.mpr ⟨?_, h'.ascending, ?_⟩, fun path p => ?_⟩
  · refine List.pairwise_map.mpr (h.ascending.imp fun hlt => ?_)
    exact List.cons_lt_cons_iff.mpr (.inr ⟨rfl, hlt⟩)
  · rintro v hv ⟨path, p⟩ hw
    obtain ⟨u, -, rfl⟩ := List.mem_map.mp hv
    obtain ⟨j, path', rfl, hij⟩ := hlater path p ((h'.mem_iff path p).mp hw)
    exact List.cons_lt_cons_iff.mpr (.inl hij)
  · rw [List.mem_append, h'.mem_iff, List.mem_map]
    refine or_congr_left ⟨?_, ?_⟩
    · rintro ⟨v, hv, heq⟩
      obtain ⟨rfl, rfl⟩ := Prod.mk.inj heq
      exact ⟨v.1, rfl, (h.mem_iff _ _).mp hv⟩
    · rintro ⟨path', rfl, hp⟩
      exact ⟨(path', p), (h.mem_iff path' p).mpr hp, rfl⟩

/-- Behind the first visit of a list are those that come later. -/
theorem InPreorder.tail {v : List Nat × Nat} (h : InPreorder (v :: visits) P) :
    InPreorder visits fun path p => P path p ∧ v.1 < path := by
  obtain ⟨hv, hvs⟩ := List.pairwise_cons.mp h.ascending
  refine ⟨hvs, fun path p => ?_⟩
  rw [← h.mem_iff, List.mem_cons]
  constructor
  · exact fun hmem => ⟨.inr hmem, hv _ hmem⟩
  · rintro ⟨rfl | hmem, hlt⟩
    · exact absurd hlt (List.lt_irrefl _)
    · exact hmem

/-- **Visits that come first make a first part**: if `P` has, of the visits of `P'`, all that come
before one of its own, then its list begins the other. -/
theorem InPreorder.isPrefix (h : InPreorder visits P) (h' : InPreorder visits' P')
    (hsub : ∀ path p, P path p → P' path p)
    (hdown : ∀ path p path' p', P path p → P' path' p' → path' < path → P path' p') :
    visits <+: visits' := by
  induction visits' generalizing visits P P' with
  | nil =>
    cases visits with
    | nil => exact List.prefix_rfl
    | cons v visits =>
      have := hsub v.1 v.2 ((h.mem_iff v.1 v.2).mp List.mem_cons_self)
      exact absurd ((h'.mem_iff v.1 v.2).mpr this) List.not_mem_nil
  | cons w visits' ih =>
    cases visits with
    | nil => exact List.nil_prefix
    | cons v visits =>
      have hv := (List.pairwise_cons.mp h.ascending).1
      have hw := (List.pairwise_cons.mp h'.ascending).1
      have hPv : P v.1 v.2 := (h.mem_iff v.1 v.2).mp List.mem_cons_self
      -- the first visit of the longer list cannot come before that of the shorter, nor after it
      have hvw : v = w := by
        rcases List.mem_cons.mp ((h'.mem_iff v.1 v.2).mpr (hsub _ _ hPv)) with hvw | hvw
        · exact hvw
        have hlt : w.1 < v.1 := hw v hvw
        have hPw : P w.1 w.2 :=
          hdown _ _ _ _ hPv ((h'.mem_iff w.1 w.2).mp List.mem_cons_self) hlt
        rcases List.mem_cons.mp ((h.mem_iff w.1 w.2).mpr hPw) with hwv | hwv
        · exact hwv.symm
        · exact absurd hlt (List.lt_asymm (hv w hwv))
      subst hvw
      refine List.cons_prefix_cons.mpr ⟨rfl, ih h.tail h'.tail ?_ ?_⟩
      · exact fun path p hp => ⟨hsub path p hp.1, hp.2⟩
      · exact fun path p path' p' hp hp' hlt => ⟨hdown path p path' p' hp.1 hp'.1 hlt, hp'.2⟩

/-- Two lists of the same visits are the same list. -/
theorem InPreorder.unique (h : InPreorder visits P) (h' : InPreorder visits' P) :
    visits = visits' := by
  have hpre := h.isPrefix h' (fun _ _ => id) fun _ _ _ _ _ hq _ => hq
  have hpre' := h'.isPrefix h (fun _ _ => id) fun _ _ _ _ _ hq _ => hq
  exact hpre.eq_of_length_le hpre'.length_le

end InPreorder

/-! ## 3. The visits of a walk -/

/-- What a walk visits from the slot `first` of the sequence token at `a` on: what is below a slot, if
nothing below those before it is too deep. -/
def VisitedFrom (m : Memory) (room a first : Nat) (path : List Nat) (p : Nat) : Prop :=
  ∃ i path' q, path = i :: path' ∧ first ≤ i ∧ m.SlotAt a i q ∧ m.Visited room q path' p ∧
    ∀ j q', first ≤ j → j < i → m.SlotAt a j q' → m.Shallow room q'

/-- The visits from a slot on are those below it and, if nothing there is too deep, those from the
next slot on. -/
theorem visitedFrom_iff {room a first q p : Nat} {path : List Nat} (hq : m.SlotAt a first q) :
    m.VisitedFrom room a first path p ↔
      (∃ path', path = first :: path' ∧ m.Visited room q path' p) ∨
        m.Shallow room q ∧ m.VisitedFrom room a (first + 1) path p := by
  constructor
  · rintro ⟨i, path', q', rfl, hi, hs, hp, hbefore⟩
    rcases Nat.eq_or_lt_of_le hi with rfl | hlt
    · obtain rfl := hs.unique hq
      exact .inl ⟨path', rfl, hp⟩
    · refine .inr ⟨hbefore first q (Nat.le_refl _) hlt hq, i, path', q', rfl, hlt, hs, hp, ?_⟩
      exact fun j r hj => hbefore j r (Nat.le_of_succ_le hj)
  · rintro (⟨path', rfl, hp⟩ | ⟨hshallow, i, path', q', rfl, hi, hs, hp, hbefore⟩)
    · exact ⟨first, path', q, rfl, Nat.le_refl _, hq, hp, fun j _ hj hlt => by omega⟩
    · refine ⟨i, path', q', rfl, by omega, hs, hp, fun j r hj hlt hr => ?_⟩
      rcases Nat.eq_or_lt_of_le hj with rfl | hj
      · exact hr.unique hq ▸ hshallow
      · exact hbefore j r hj hlt hr

/-- A walk visits the root first, and then what it visits from the first slot on. -/
theorem visited_succ_iff {room a p : Nat} {path : List Nat} :
    m.Visited (room + 1) a path p ↔ path = [] ∧ p = a ∨ m.VisitedFrom room a 0 path p := by
  cases path with
  | nil =>
    constructor
    · exact fun h => .inl ⟨rfl, pathAt_nil_iff.mp h.1⟩
    · rintro (⟨-, rfl⟩ | ⟨i, path', q, h, -⟩)
      · exact visited_root
      · cases h
  | cons i path =>
    rw [visited_cons_iff]
    constructor
    · rintro ⟨q, hs, hp, hbefore⟩
      exact .inr ⟨i, path, q, rfl, Nat.zero_le i, hs, hp, fun j r _ => hbefore j r⟩
    · rintro (⟨h, -⟩ | ⟨j, path', q, h, -, hs, hp, hbefore⟩)
      · cases h
      · obtain ⟨rfl, rfl⟩ := List.cons.inj h
        exact ⟨q, hs, hp, fun j r => hbefore j r (Nat.zero_le j)⟩

/-- **A walk comes to its end where nothing is too deep**, if what it visits can be read. -/
theorem walk_ok_iff_shallow {room a : Nat}
    (hread : ∀ path p, m.Visited room a path p → p ≠ 0 → m.Readable p) :
    (∃ t, (m.walk room a).result = .ok t) ↔ m.Shallow room a := by
  constructor
  · rintro ⟨t, h⟩
    obtain ⟨ht, hd⟩ := walk_eq_ok_iff.mp h
    exact ht.shallow hd
  · intro h
    have hall : ∀ depth p, depth ≤ room → m.PointerAt a depth p → p ≠ 0 → m.Readable p := by
      intro depth p _ hp
      obtain ⟨path, -, hpath⟩ := hp.exists_pathAt
      exact hread path p (h.visited_iff.mpr hpath)
    obtain ⟨t, ht, hd⟩ := exists_tokenAt hall (shallow_iff_pointerAt.mp h)
    exact ⟨t, walk_eq_ok_iff.mpr ⟨ht, hd⟩⟩

/-- The slots from `first` on are reported in preorder, if the walk from each is. -/
theorem readSlots_visits {room a elements used : Nat} (ha : a ≠ 0) (ht : m.NumberAt a 4 16)
    (hs : m.SlotsAt a elements used)
    (hslots : ∀ i, i < used → ∃ p, m.NumberAt (elements + 8 * i) 8 p)
    (hwalk : ∀ q, (∀ path p, m.Visited room q path p → p ≠ 0 → m.Readable p) →
      ∃ visits, InPreorder visits (m.Visited room q) ∧
        (m.walk room q).events = visits.filterMap fun v => m.reportAt v.2)
    {n first : Nat} (hn : first + n = used)
    (hread : ∀ path p, m.VisitedFrom room a first path p → p ≠ 0 → m.Readable p) :
    ∃ visits, InPreorder visits (m.VisitedFrom room a first) ∧
      (m.readSlots (m.walk room) n (elements + 8 * first)).events =
        visits.filterMap fun v => m.reportAt v.2 := by
  induction n generalizing first with
  | zero =>
    refine ⟨[], .nil ?_, rfl⟩
    rintro path p ⟨i, _, q, -, hi, hq, -⟩
    have := ((hs.slotAt_iff ha ht).mp hq).1
    omega
  | succ n ih =>
    have hword : FieldType.word.size = 8 := rfl
    obtain ⟨q, hq⟩ := hslots first (by omega)
    have hslot : m.SlotAt a first q := (hs.slotAt_iff ha ht).mpr ⟨by omega, hq⟩
    have hfrom : ∀ path p, m.VisitedFrom room a first path p ↔ _ := fun _ _ =>
      visitedFrom_iff hslot
    have hreadq : ∀ path p, m.Visited room q path p → p ≠ 0 → m.Readable p := fun path p hp =>
      hread (first :: path) p ((hfrom _ _).mpr (.inl ⟨path, rfl, hp⟩))
    obtain ⟨visits, hvisits, hevents⟩ := hwalk q hreadq
    rw [readSlots, loadPointer_eq_some_iff.mpr hq, Traced.ofOption_some_bind, hword,
      Nat.add_assoc, ← Nat.mul_succ]
    by_cases hok : ∃ t, (m.walk room q).result = .ok t
    · have hshallow := (walk_ok_iff_shallow hreadq).mp hok
      obtain ⟨t, hok⟩ := hok
      obtain ⟨later, hlater, hlevents⟩ := ih (show first + 1 + n = used by omega)
        fun path p hp => hread path p ((hfrom _ _).mpr (.inr ⟨hshallow, hp⟩))
      refine ⟨_, (hvisits.append_slot (i := first) hlater ?_).congr ?_, ?_⟩
      · rintro path p ⟨i, path', _, rfl, hi, -⟩
        exact ⟨i, path', rfl, hi⟩
      · intro path p
        rw [hfrom, and_iff_right hshallow]
      · rw [Traced.events_bind_of_ok hok, Traced.events_bind_pure, hevents, hlevents,
          List.filterMap_append, List.filterMap_map]
        rfl
    · -- the walk ends below this slot, and no later one is visited
      have hshallow := mt (walk_ok_iff_shallow hreadq).mpr hok
      have hnone : InPreorder [] fun _ _ => False := .nil fun _ _ => id
      refine ⟨_, (hvisits.append_slot (i := first) hnone fun _ _ h => h.elim).congr ?_, ?_⟩
      · intro path p
        rw [hfrom, or_false, eq_false hshallow, false_and, or_false]
      · cases hresult : (m.walk room q).result with
        | ok t => exact absurd ⟨t, hresult⟩ hok
        | error e =>
          rw [Traced.events_bind_of_error hresult, hevents, List.append_nil, List.filterMap_map]
          rfl

/-- The token at `a` is reported first, if at all, and then what is below it. -/
theorem readValue_visits {room a : Nat} {tag : Tag} {index : UInt64} (ha : a ≠ 0)
    (hr : m.Readable a) (ht : m.tokenTag a = some tag) (hi : m.tokenIndex a = some index)
    (hwalk : ∀ q, (∀ path p, m.Visited room q path p → p ≠ 0 → m.Readable p) →
      ∃ visits, InPreorder visits (m.Visited room q) ∧
        (m.walk room q).events = visits.filterMap fun v => m.reportAt v.2)
    (hread : ∀ path p, m.VisitedFrom room a 0 path p → p ≠ 0 → m.Readable p) :
    ∃ visits, InPreorder visits (m.VisitedFrom room a 0) ∧
      (m.readValue (m.walk room) a tag index).events =
        (m.reportAt a).toList ++ visits.filterMap fun v => m.reportAt v.2 := by
  have htag := tokenTag_eq_some_iff.mp ht
  -- only a sequence has slots
  have hnone : tag.toNat ≠ 16 → InPreorder [] (m.VisitedFrom room a 0) := by
    refine fun hne => .nil ?_
    rintro path p ⟨_, _, _, -, -, hs, -⟩
    exact absurd (htag.unique hs.2.1) hne
  rw [reportAt_eq ha ht hi]
  rcases tag.cases_kind with rfl | rfl | rfl | rfl | rfl | ⟨hk, hn⟩
  · exact ⟨[], hnone (by decide), rfl⟩
  · have hk : Tag.kind 2 = .bytes := by decide
    refine ⟨[], hnone (by decide), ?_⟩
    rw [readValue, hk]
    exact (Traced.events_bind_pure ..).trans (Traced.events_ofOption ..)
  · have hk : Tag.kind 4 = .signed := by decide
    refine ⟨[], hnone (by decide), ?_⟩
    rw [readValue, hk]
    exact (Traced.events_bind_pure ..).trans (Traced.events_ofOption ..)
  · have hk : Tag.kind 8 = .unsigned := by decide
    refine ⟨[], hnone (by decide), ?_⟩
    rw [readValue, hk]
    exact (Traced.events_bind_pure ..).trans (Traced.events_ofOption ..)
  · have hk : Tag.kind 16 = .sequence := by decide
    obtain ⟨elements, used, hs, hslots⟩ := hr.exists_slotsAt htag
    obtain ⟨visits, hvisits, hevents⟩ :=
      readSlots_visits ha htag hs hslots hwalk (Nat.zero_add used) hread
    refine ⟨visits, hvisits, ?_⟩
    rw [readValue, hk]
    simp only [tokenSlots_eq_some_iff.mpr hs, Traced.ofOption_some_bind, Traced.events_bind_pure]
    exact hevents
  · refine ⟨[], hnone fun h => hn (by rw [h]; decide), ?_⟩
    rw [readValue, hk, if_neg hn]
    rfl

/-- **A walk reports its visits in preorder**, if what it visits can be read. -/
theorem walk_visits {room a : Nat}
    (hread : ∀ path p, m.Visited room a path p → p ≠ 0 → m.Readable p) :
    ∃ visits, InPreorder visits (m.Visited room a) ∧
      (m.walk room a).events = visits.filterMap fun v => m.reportAt v.2 := by
  induction room generalizing a with
  | zero => exact ⟨[], .nil fun _ _ => not_visited_zero, rfl⟩
  | succ room ih =>
    rw [walk]
    by_cases ha : a = 0
    · subst ha
      refine ⟨[([], 0)], ⟨List.pairwise_singleton .., fun path p => ?_⟩, rfl⟩
      rw [List.mem_singleton, Prod.mk.injEq]
      constructor
      · rintro ⟨rfl, rfl⟩
        exact visited_root
      · exact fun h => h.1.eq_nil_of_null
    have hr : m.Readable a := hread [] a visited_root ha
    obtain ⟨tag, index, bitOffset, ht, hi, hb⟩ := hr.exists_header
    obtain ⟨visits, hvisits, hevents⟩ :=
      readValue_visits ha hr ht hi (fun q => ih) fun path p hp =>
        hread path p (visited_succ_iff.mpr (.inr hp))
    refine ⟨([], a) :: visits, (hvisits.cons_root ?_).congr fun _ _ => visited_succ_iff.symm, ?_⟩
    · rintro path p ⟨i, path', _, rfl, -⟩
      exact List.cons_ne_nil i path'
    · rw [if_neg ha, ht, hi, hb, Traced.ofOption_some_bind, Traced.ofOption_some_bind,
        Traced.ofOption_some_bind, Traced.events_bind_pure, hevents, List.filterMap_cons]
      cases m.reportAt a <;> rfl

/-! ## 4. What decoders report -/

/-- In a graph without cycles a walk with the room of an unlimited decoder visits everything. -/
theorem WellFormed.shallow {root : Nat} (h : m.WellFormed root) :
    m.Shallow (addressSpace + 1) root := by
  intro deep q hdeep hlen
  have := h.length_le hdeep
  omega

/-- **Decoders report in preorder what they visit.**

* In a well-formed graph the paths from the root are finitely many, and an unlimited decoder reports
  those of all of them: the unsupported tags in preorder, once for each path, and nothing else.
* Under a limit what is reported is that of the paths before the first pointer that is one deeper
  than the limit.  These have to be readable, and nothing is assumed of the rest of the graph.
* So in a well-formed graph a limited decoder reports a first part of what an unlimited one does, and
  all of it if it gives a token.
* What is reported is in any case a debug event with the tag and the index of a token. -/
theorem decode_reports (m : Memory) (root : Nat) :
    (m.WellFormed root → ∃ visits, InPreorder visits (m.PathAt root) ∧
      ∀ d : Decoder, d.maxDepth = none →
        (d.decode m root).events = visits.filterMap fun v => m.reportAt v.2) ∧
    (∀ (d : Decoder) (limit : UInt64), d.maxDepth = some limit →
      (∀ path p, d.Visits m root path p → p ≠ 0 → m.Readable p) →
      ∃ visits, InPreorder visits (d.Visits m root) ∧
        (d.decode m root).events = visits.filterMap fun v => m.reportAt v.2) ∧
    (m.WellFormed root → ∀ d d' : Decoder, d'.maxDepth = none →
      (d.decode m root).events <+: (d'.decode m root).events ∧
        ((∃ t, (d.decode m root).result = .ok t) →
          (d.decode m root).events = (d'.decode m root).events)) ∧
    ∀ p event, m.reportAt p = some event →
      event.level = .debug ∧ ∃ tag index : Nat, m.NumberAt p 4 tag ∧ m.NumberAt (p + 24) 8 index ∧
        tag ∉ [1, 2, 4, 8, 16] ∧
        event.fields = [("tag", tag.repr), ("byte_offset", index.repr)] := by
  refine ⟨fun hwf => ?_, fun d limit hd hread => ?_, fun hwf d d' hd' => ?_,
    fun p event => reportAt_eq_some⟩
  · obtain ⟨visits, hvisits, hevents⟩ :=
      walk_visits fun path p (hp : m.Visited (addressSpace + 1) root path p) =>
        hwf.readable p hp.1.reachable
    refine ⟨visits, hvisits.congr fun _ _ => hwf.shallow.visited_iff, fun d hd => ?_⟩
    rw [Decoder.decode, Traced.events_mapError, Decoder.room_of_maxDepth_none hd, hevents]
  · have hroom : d.room = limit.toNat := by rw [Decoder.room, hd]
    obtain ⟨visits, hvisits, hevents⟩ := walk_visits fun path p (hp : m.Visited d.room root path p) =>
      hread path p (Decoder.visits_of_visited hp)
    refine ⟨visits, hvisits.congr fun path p => ?_, hevents⟩
    rw [Decoder.visits_of_maxDepth_some hd, hroom]
  · have hread : ∀ room path p, m.Visited room root path p → p ≠ 0 → m.Readable p :=
      fun _ path p hp => hwf.readable p hp.1.reachable
    obtain ⟨visits, hvisits, hevents⟩ := walk_visits (hread d.room)
    obtain ⟨visits', hvisits', hevents'⟩ := walk_visits (hread (addressSpace + 1))
    replace hvisits' := hvisits'.congr fun _ _ => hwf.shallow.visited_iff
    rw [Decoder.decode, Decoder.decode, Traced.events_mapError, Traced.events_mapError,
      Decoder.room_of_maxDepth_none hd', hevents, hevents']
    refine ⟨List.IsPrefix.filterMap _ ?_, fun hok => ?_⟩
    · exact hvisits.isPrefix hvisits' (fun _ _ => And.left) fun _ _ _ _ hp hq hlt =>
        hp.of_lt hq hlt
    · obtain ⟨t, ht⟩ := hok
      rw [Traced.result_mapError_eq_ok_iff] at ht
      have hshallow := (walk_ok_iff_shallow (hread d.room)).mp ⟨t, ht⟩
      rw [(hvisits.congr fun _ _ => hshallow.visited_iff).unique hvisits']

/-- A sequence token at 16 with three slots.  The first and the last lead to one token of an
unsupported tag, at the greatest index, and the second to a sequence of a null pointer. -/
def reportingMemory : Memory :=
  ofBytes 16 <| recordBytes 16 64 0 3 0 ++ [3, 3, 0, 96].flatMap (littleEndian 8) ++
    [120, 168, 120].flatMap (littleEndian 8) ++ recordBytes 32 7 7 0xFFFFFFFFFFFFFFFF 255 ++
    recordBytes 16 216 0 5 0 ++ [1, 1, 0, 248].flatMap (littleEndian 8) ++ littleEndian 8 0

/-- A walk with room for three tokens on a path is not cut off. -/
theorem walk_reportingMemory :
    reportingMemory.walk 3 16 =
      ⟨[.unsupportedTag 32 0xFFFFFFFFFFFFFFFF, .unsupportedTag 32 0xFFFFFFFFFFFFFFFF],
        .ok ⟨3, 0, .sequence [⟨-1, -1, .none⟩, ⟨5, 0, .sequence [Token.zero]⟩,
          ⟨-1, -1, .none⟩]⟩⟩ := by
  cbv

theorem tokenAt_reportingMemory :
    reportingMemory.TokenAt 16
      ⟨3, 0, .sequence [⟨-1, -1, .none⟩, ⟨5, 0, .sequence [Token.zero]⟩, ⟨-1, -1, .none⟩]⟩ :=
  (walk_eq_ok_iff.mp (congrArg Traced.result walk_reportingMemory)).1

/-- A limit of 3 is enough for that memory, and a limit of 2 is not. -/
theorem events_reportingMemory :
    ((({} : Decoder).withMaxDepth 3).decode reportingMemory 16).events =
        [.unsupportedTag 32 0xFFFFFFFFFFFFFFFF, .unsupportedTag 32 0xFFFFFFFFFFFFFFFF] ∧
      ((({} : Decoder).withMaxDepth 2).decode reportingMemory 16).events =
        [.unsupportedTag 32 0xFFFFFFFFFFFFFFFF] := by
  constructor
  · exact congrArg Traced.events walk_reportingMemory
  · cbv

/-- The shared token of that memory is reported twice.  Under a limit of 2 the null pointer is too
deep, and what comes behind it is not reported. -/
theorem decode_reportingMemory :
    reportingMemory.WellFormed 16 ∧
      (({} : Decoder).decode reportingMemory 16).events =
        [.unsupportedTag 32 0xFFFFFFFFFFFFFFFF, .unsupportedTag 32 0xFFFFFFFFFFFFFFFF] ∧
      ∃ visits, InPreorder visits ((({} : Decoder).withMaxDepth 2).Visits reportingMemory 16) ∧
        visits.filterMap (fun v => reportingMemory.reportAt v.2) =
          [.unsupportedTag 32 0xFFFFFFFFFFFFFFFF] := by
  have hwf := wellFormed_iff_exists_tokenAt.mpr ⟨_, tokenAt_reportingMemory⟩
  obtain ⟨-, hlimit, hbegins, -⟩ := decode_reports reportingMemory 16
  have hok : ∃ t, ((({} : Decoder).withMaxDepth 3).decode reportingMemory 16).result = .ok t :=
    ⟨_, Decoder.decode_eq_ok_iff.mpr ⟨tokenAt_reportingMemory, by decide⟩⟩
  obtain ⟨visits, hvisits, hevents⟩ := hlimit (({} : Decoder).withMaxDepth 2) 2 rfl
    fun path p hp => hwf.readable p hp.1.reachable
  exact ⟨hwf, ((hbegins hwf _ {} rfl).2 hok).symm.trans events_reportingMemory.1, visits, hvisits,
    hevents.symm.trans events_reportingMemory.2⟩

end Memory

end TokenImage
