/-
# Paths

A pointer below a root is met once for each way down to it.  A way down is a path: the numbers of the
slots that are taken, from the root on (`PathAt`).  A depth says less: the depth of a pointer is one
more than the length of its path.

Paths are compared as lists are, and then come in preorder: a token before what is below it, and what
is below one slot before what is below the next.  A walk with a bound on its depth goes through them
in that order and ends at the first pointer beyond the bound.  So what it visits can be said of the
graph alone (`Visited`): the paths that come before every path that is too long.
-/
import TokenImage.Proofs.Graph.Depth

namespace TokenImage

namespace Memory

variable {m : Memory}

/-! ## 1. Slots -/

/-- The pointer `p` stands in the used slot `i` of the sequence token at `a`. -/
def SlotAt (m : Memory) (a i p : Nat) : Prop :=
  a ≠ 0 ∧ m.NumberAt a 4 16 ∧ ∃ elements used, m.SlotsAt a elements used ∧ i < used ∧
    m.NumberAt (elements + 8 * i) 8 p

/-- A child is what stands in some slot. -/
theorem child_iff_exists_slotAt {a p : Nat} : m.Child a p ↔ ∃ i, m.SlotAt a i p := by
  constructor
  · rintro ⟨ha, ht, elements, used, i, h⟩
    exact ⟨i, ha, ht, elements, used, h⟩
  · rintro ⟨i, ha, ht, elements, used, h⟩
    exact ⟨ha, ht, elements, used, i, h⟩

theorem SlotAt.child {a i p : Nat} (h : m.SlotAt a i p) : m.Child a p :=
  child_iff_exists_slotAt.mpr ⟨i, h⟩

/-- A slot holds one pointer. -/
theorem SlotAt.unique {a i p q : Nat} (h : m.SlotAt a i p) (h' : m.SlotAt a i q) : p = q := by
  obtain ⟨-, -, elements, used, hs, -, hp⟩ := h
  obtain ⟨-, -, elements', used', hs', -, hq⟩ := h'
  obtain ⟨rfl, rfl⟩ := hs.unique hs'
  exact hp.unique hq

/-- Where the slots of a sequence token are known, so is what stands in them. -/
theorem SlotsAt.slotAt_iff {a elements used i p : Nat} (hs : m.SlotsAt a elements used)
    (ha : a ≠ 0) (ht : m.NumberAt a 4 16) :
    m.SlotAt a i p ↔ i < used ∧ m.NumberAt (elements + 8 * i) 8 p := by
  constructor
  · rintro ⟨-, -, elements', used', hs', h⟩
    obtain ⟨rfl, rfl⟩ := hs.unique hs'
    exact h
  · exact fun h => ⟨ha, ht, elements, used, hs, h⟩

/-! ## 2. Paths -/

/-- The pointer `p` is what the slots of `path`, taken one after the other from `root` on, lead to. -/
inductive PathAt (m : Memory) : (root : Nat) → (path : List Nat) → (p : Nat) → Prop
  | root {root : Nat} : PathAt m root [] root
  | slot {root i q p : Nat} {path : List Nat} (hs : m.SlotAt root i q) (h : PathAt m q path p) :
      PathAt m root (i :: path) p

theorem pathAt_nil_iff {root p : Nat} : m.PathAt root [] p ↔ p = root := by
  constructor
  · intro h
    cases h
    rfl
  · rintro rfl
    exact .root

theorem pathAt_cons_iff {root i p : Nat} {path : List Nat} :
    m.PathAt root (i :: path) p ↔ ∃ q, m.SlotAt root i q ∧ m.PathAt q path p := by
  constructor
  · intro h
    cases h with
    | slot hs h => exact ⟨_, hs, h⟩
  · rintro ⟨q, hs, h⟩
    exact .slot hs h

/-- A path ends in a slot, unless it is the root. -/
theorem PathAt.concat {root a i p : Nat} {path : List Nat} (h : m.PathAt root path a)
    (hs : m.SlotAt a i p) : m.PathAt root (path ++ [i]) p := by
  induction h with
  | root => exact .slot hs .root
  | slot hs' _ ih => exact .slot hs' (ih hs)

/-- There are paths to what stands on the way. -/
theorem PathAt.take {root p : Nat} {path : List Nat} (h : m.PathAt root path p) (n : Nat) :
    ∃ q, m.PathAt root (path.take n) q := by
  induction h generalizing n with
  | root => exact ⟨_, by simpa using PathAt.root⟩
  | slot hs _ ih =>
    cases n with
    | zero => exact ⟨_, .root⟩
    | succ n =>
      obtain ⟨q, hq⟩ := ih n
      exact ⟨q, .slot hs hq⟩

/-- Nothing is below the null pointer. -/
theorem PathAt.eq_nil_of_null {p : Nat} {path : List Nat} (h : m.PathAt 0 path p) :
    path = [] ∧ p = 0 := by
  cases h with
  | root => exact ⟨rfl, rfl⟩
  | slot hs => exact absurd rfl hs.1

/-- The end of a path is as deep as the path is long, and one. -/
theorem PathAt.pointerAt {root p : Nat} {path : List Nat} (h : m.PathAt root path p) :
    m.PointerAt root (path.length + 1) p := by
  induction h with
  | root => exact .root
  | slot hs _ ih => exact ih.of_child hs.child

/-- What has a depth has a path of that length, less one. -/
theorem PointerAt.exists_pathAt {root depth p : Nat} (h : m.PointerAt root depth p) :
    ∃ path, path.length + 1 = depth ∧ m.PathAt root path p := by
  induction h with
  | root => exact ⟨[], rfl, .root⟩
  | slot _ hc ih =>
    obtain ⟨path, hlen, hpath⟩ := ih
    obtain ⟨i, hs⟩ := child_iff_exists_slotAt.mp hc
    exact ⟨path ++ [i], by rw [List.length_append, List.length_singleton, hlen], hpath.concat hs⟩

theorem PathAt.reachable {root p : Nat} {path : List Nat} (h : m.PathAt root path p) :
    m.Reachable root p :=
  h.pointerAt.reachable

/-- Without cycles no path is longer than there are addresses. -/
theorem WellFormed.length_le {root p : Nat} {path : List Nat} (h : m.WellFormed root)
    (hp : m.PathAt root path p) : path.length ≤ addressSpace := by
  have := hp.pointerAt.depth_le_of_acyclic h.acyclic
  omega

/-! ## 3. Visits -/

/-- No path below `a` is so long; all of them are then shorter. -/
def Shallow (m : Memory) (room a : Nat) : Prop :=
  ∀ deep q, m.PathAt a deep q → deep.length ≠ room

/-- A walk with so much room meets `p` at the end of `path`: it comes before every path that is so
long, whatever that one leads to. -/
def Visited (m : Memory) (room a : Nat) (path : List Nat) (p : Nat) : Prop :=
  m.PathAt a path p ∧ ∀ deep q, m.PathAt a deep q → deep.length = room → path < deep

theorem shallow_iff_pointerAt {room a : Nat} :
    m.Shallow room a ↔ ∀ p, ¬ m.PointerAt a (room + 1) p := by
  constructor
  · intro h p hp
    obtain ⟨path, hlen, hpath⟩ := hp.exists_pathAt
    exact h path p hpath (by omega)
  · intro h deep q hdeep hlen
    exact h q (hlen ▸ hdeep.pointerAt)

/-- What has a token is shallow for any room that is enough for the token. -/
theorem TokenAt.shallow {room a : Nat} {t : Token} (h : m.TokenAt a t) (hd : t.depth ≤ room) :
    m.Shallow room a := by
  refine shallow_iff_pointerAt.mpr ?_
  intro p hp
  have := hp.depth_le h
  omega

/-- Below a shallow token everything is visited. -/
theorem Shallow.visited_iff {room a p : Nat} {path : List Nat} (h : m.Shallow room a) :
    m.Visited room a path p ↔ m.PathAt a path p :=
  ⟨And.left, fun hp => ⟨hp, fun deep q hq hlen => absurd hlen (h deep q hq)⟩⟩

/-- What is visited is not too deep. -/
theorem Visited.length_lt {room a p : Nat} {path : List Nat} (h : m.Visited room a path p) :
    path.length < room := by
  rcases Nat.lt_or_ge path.length room with hlt | hle
  · exact hlt
  -- what stands on the way is too deep already and does not come later
  obtain ⟨q, hq⟩ := h.1.take room
  have hlen : (path.take room).length = room := List.length_take_of_le hle
  exact absurd (h.2 _ q hq hlen) (List.not_lt.mpr (List.take_prefix room path).le)

/-- What comes before a visit is a visit. -/
theorem Visited.of_lt {room a p q : Nat} {path path' : List Nat} (h : m.Visited room a path p)
    (hq : m.PathAt a path' q) (hlt : path' < path) : m.Visited room a path' q :=
  ⟨hq, fun deep r hr hlen => List.lt_trans hlt (h.2 deep r hr hlen)⟩

/-- The root is visited if there is room for anything. -/
theorem visited_root {room a : Nat} : m.Visited (room + 1) a [] a := by
  refine ⟨.root, fun deep q _ hlen => ?_⟩
  cases deep with
  | nil => cases hlen
  | cons i deep => exact List.nil_lt_cons i deep

theorem not_visited_zero {a p : Nat} {path : List Nat} : ¬ m.Visited 0 a path p :=
  fun h => absurd h.length_lt (Nat.not_lt_zero _)

/-- **Visits below a slot** are what is visited with less room from the slot on, if nothing below the
slots before it is too deep. -/
theorem visited_cons_iff {room a i p : Nat} {path : List Nat} :
    m.Visited (room + 1) a (i :: path) p ↔
      ∃ q, m.SlotAt a i q ∧ m.Visited room q path p ∧
        ∀ j q', j < i → m.SlotAt a j q' → m.Shallow room q' := by
  constructor
  · rintro ⟨hp, h⟩
    obtain ⟨q, hs, hp⟩ := pathAt_cons_iff.mp hp
    refine ⟨q, hs, ⟨hp, fun deep r hr hlen => ?_⟩, fun j q' hj hs' deep r hr hlen => ?_⟩
    · have hlt := h (i :: deep) r (.slot hs hr) (by rw [List.length_cons, hlen])
      exact (List.cons_lt_cons_iff.mp hlt).resolve_left (Nat.lt_irrefl i) |>.2
    · have hlt := h (j :: deep) r (.slot hs' hr) (by rw [List.length_cons, hlen])
      rcases List.cons_lt_cons_iff.mp hlt with hij | ⟨hij, -⟩
      · exact Nat.lt_asymm hj hij
      · exact Nat.ne_of_gt hj hij
  · rintro ⟨q, hs, ⟨hp, h⟩, hbefore⟩
    refine ⟨.slot hs hp, fun deep r hr hlen => ?_⟩
    cases hr with
    | root => cases hlen
    | @slot _ j q' _ deep hs' hr =>
      have hdeep : deep.length = room := Nat.succ_inj.mp hlen
      rcases Nat.lt_trichotomy i j with hij | rfl | hji
      · exact List.cons_lt_cons_iff.mpr (.inl hij)
      · obtain rfl := hs.unique hs'
        exact List.cons_lt_cons_iff.mpr (.inr ⟨rfl, h deep r hr hdeep⟩)
      · exact absurd hdeep (hbefore j q' hji hs' deep r hr)

end Memory

/-! ## 4. Visits of a decoder -/

/-- **What a decoder visits**: with a limit, the paths that come before every pointer, null or not,
that is one deeper than the limit; without a limit, all paths. -/
def Decoder.Visits (d : Decoder) (m : Memory) (root : Nat) (path : List Nat) (p : Nat) : Prop :=
  m.PathAt root path p ∧ ∀ limit, d.maxDepth = some limit →
    ∀ deep q, m.PathAt root deep q → deep.length = limit.toNat → path < deep

namespace Decoder

variable {d : Decoder} {m : Memory} {root : Nat}

theorem visits_of_maxDepth_none (hd : d.maxDepth = none) {path : List Nat} {p : Nat} :
    d.Visits m root path p ↔ m.PathAt root path p := by
  simp [Visits, hd]

theorem visits_of_maxDepth_some {limit : UInt64} (hd : d.maxDepth = some limit)
    {path : List Nat} {p : Nat} :
    d.Visits m root path p ↔ m.Visited limit.toNat root path p := by
  simp [Visits, Memory.Visited, hd]

/-- A decoder visits all that a walk visits with the room of the decoder. -/
theorem visits_of_visited {path : List Nat} {p : Nat} (h : m.Visited d.room root path p) :
    d.Visits m root path p := by
  cases hd : d.maxDepth with
  | none => exact (visits_of_maxDepth_none hd).mpr h.1
  | some limit =>
    rw [room, hd] at h
    exact (visits_of_maxDepth_some hd).mpr h

end Decoder

end TokenImage
