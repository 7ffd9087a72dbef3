/-
# What the measures of a token measure

A token that was read from memory has lost the addresses, but not the form of the graph below them.
Each token in its tree stands at one path, and these paths are the ones that pointers take through the
graph (`TokenAt.mem_paths_iff`).  A token of the graph that several slots share is one token there and
many in the tree, and a null pointer is the end of a path like any other.

So the two measures of a token say something of memory: the count is the number of paths, and the
depth is the number of pointers on the longest of them (`Memory.Measures`).
-/
import TokenImage.Proofs.Decoder.WellFormed
import TokenImage.Proofs.Graph.Paths

namespace TokenImage

/-! ## 1. Paths in a tree -/

namespace Token

mutual

/-- **The paths of a token**: where the tokens of its tree stand, in preorder. -/
def paths : Token → List (List Nat)
  | ⟨_, _, .none⟩ => [[]]
  | ⟨_, _, .bytes _⟩ => [[]]
  | ⟨_, _, .signed _⟩ => [[]]
  | ⟨_, _, .unsigned _⟩ => [[]]
  | ⟨_, _, .sequence items⟩ => [] :: pathsFrom 0 items

/-- The paths of the tokens of a list, the first of which stands in the slot `i`. -/
def pathsFrom (i : Nat) : List Token → List (List Nat)
  | [] => []
  | t :: ts => t.paths.map (i :: ·) ++ pathsFrom (i + 1) ts

end

mutual

/-- There are as many paths as tokens. -/
theorem length_paths : ∀ t : Token, t.paths.length = t.count
  | ⟨_, _, .none⟩ => by rw [paths, count, List.length_singleton]
  | ⟨_, _, .bytes _⟩ => by rw [paths, count, List.length_singleton]
  | ⟨_, _, .signed _⟩ => by rw [paths, count, List.length_singleton]
  | ⟨_, _, .unsigned _⟩ => by rw [paths, count, List.length_singleton]
  | ⟨_, _, .sequence items⟩ => by
    rw [paths, count, List.length_cons, length_pathsFrom 0 items, Nat.add_comm]

theorem length_pathsFrom : ∀ (i : Nat) (ts : List Token), (pathsFrom i ts).length = totalCount ts
  | _, [] => by rw [pathsFrom, totalCount, List.length_nil]
  | i, t :: ts => by
    rw [pathsFrom, totalCount, List.length_append, List.length_map, length_paths t,
      length_pathsFrom (i + 1) ts]

end

/-- A path from a slot on goes into one of the tokens. -/
theorem mem_pathsFrom_iff {path : List Nat} : ∀ {i : Nat} {ts : List Token},
    path ∈ pathsFrom i ts ↔
      ∃ (j : Nat) (h : j < ts.length), ∃ rest ∈ ts[j].paths, path = (i + j) :: rest
  | i, [] => by simp [pathsFrom]
  | i, t :: ts => by
    rw [pathsFrom, List.mem_append, List.mem_map, mem_pathsFrom_iff]
    constructor
    · rintro (⟨rest, hrest, rfl⟩ | ⟨j, hj, rest, hrest, rfl⟩)
      · exact ⟨0, Nat.succ_pos _, rest, hrest, rfl⟩
      · exact ⟨j + 1, Nat.succ_lt_succ hj, rest, hrest, by rw [Nat.add_right_comm, Nat.add_assoc]⟩
    · rintro ⟨j, hj, rest, hrest, rfl⟩
      cases j with
      | zero => exact .inl ⟨rest, hrest, rfl⟩
      | succ j =>
        exact .inr ⟨j, Nat.lt_of_succ_lt_succ hj, rest, hrest,
          by rw [Nat.add_right_comm, Nat.add_assoc]⟩

/-- The token itself is at the path without a slot. -/
theorem nil_mem_paths : ∀ t : Token, [] ∈ t.paths
  | ⟨_, _, .none⟩ | ⟨_, _, .bytes _⟩ | ⟨_, _, .signed _⟩ | ⟨_, _, .unsigned _⟩ => by
    rw [paths]
    exact List.mem_singleton_self _
  | ⟨_, _, .sequence _⟩ => by
    rw [paths]
    exact List.mem_cons_self

/-- **Below its root a token has the paths of its items**, each from its slot on. -/
theorem cons_mem_paths_iff {t : Token} {i : Nat} {path : List Nat} :
    i :: path ∈ t.paths ↔
      ∃ items, t.value = .sequence items ∧ ∃ h : i < items.length, path ∈ items[i].paths := by
  obtain ⟨byteOffset, bitOffset, value⟩ := t
  cases value with
  | none | bytes | signed | unsigned => simp [paths]
  | sequence items => simp [paths, mem_pathsFrom_iff]

mutual

/-- **No two tokens of a tree stand at one path.** -/
theorem nodup_paths : ∀ t : Token, t.paths.Nodup
  | ⟨_, _, .none⟩ => by rw [paths]; exact List.nodup_singleton _
  | ⟨_, _, .bytes _⟩ => by rw [paths]; exact List.nodup_singleton _
  | ⟨_, _, .signed _⟩ => by rw [paths]; exact List.nodup_singleton _
  | ⟨_, _, .unsigned _⟩ => by rw [paths]; exact List.nodup_singleton _
  | ⟨_, _, .sequence items⟩ => by
    rw [paths, List.nodup_cons]
    refine ⟨fun hroot => ?_, nodup_pathsFrom 0 items⟩
    obtain ⟨_, _, _, _, hnil⟩ := mem_pathsFrom_iff.mp hroot
    cases hnil

theorem nodup_pathsFrom : ∀ (i : Nat) (ts : List Token), (pathsFrom i ts).Nodup
  | _, [] => by rw [pathsFrom]; exact List.nodup_nil
  | i, t :: ts => by
    rw [pathsFrom, List.nodup_append]
    refine ⟨(nodup_paths t).map fun _ _ h => (List.cons.inj h).2, nodup_pathsFrom (i + 1) ts, ?_⟩
    -- the paths of the later tokens begin with later slots
    rintro path hpath later hlater rfl
    obtain ⟨rest, -, rfl⟩ := List.mem_map.mp hpath
    obtain ⟨j, -, rest', -, heq⟩ := mem_pathsFrom_iff.mp hlater
    have hslot := (List.cons.inj heq).1
    omega

end

end Token

/-! ## 2. Paths in memory -/

namespace Memory

variable {m : Memory}

/-- What stands in a slot is an item of the token. -/
theorem TokenAt.of_slotAt {a i p : Nat} {t : Token} (h : m.TokenAt a t) (hs : m.SlotAt a i p) :
    ∃ items, t.value = .sequence items ∧ ∃ hi : i < items.length, m.TokenAt p items[i] := by
  obtain ⟨ha, ht, elements, used, hs, hi, hp⟩ := hs
  have hv := h.valueAt ha ht
  generalize t.value = v at hv
  cases hv with
  | @sequence _ _ items pointers hs' hp' hitems =>
    obtain ⟨rfl, rfl⟩ := hs.unique hs'
    obtain rfl := hp.unique (hp' i hi)
    exact ⟨items, rfl, hi, hitems i hi⟩
  | unsupported hk => exact absurd (by decide) hk

/-- An item of the token stands in its slot. -/
theorem TokenAt.exists_slotAt {a i : Nat} {t : Token} {items : List Token} (h : m.TokenAt a t)
    (ht : t.value = .sequence items) (hi : i < items.length) :
    ∃ p, m.SlotAt a i p ∧ m.TokenAt p items[i] := by
  cases h with
  | null => cases ht
  | @record _ tag byteOffset bitOffset value ha hh hv =>
    obtain rfl : value = .sequence items := ht
    cases hv with
    | @sequence _ elements _ pointers hs hp hitems =>
      exact ⟨pointers i, ⟨ha, hh.tag_at, elements, _, hs, hi, hp i hi⟩, hitems i hi⟩

/-- **The paths of a token are those of the pointers below it**, null pointers with the rest. -/
theorem TokenAt.mem_paths_iff {a : Nat} {t : Token} {path : List Nat} (h : m.TokenAt a t) :
    path ∈ t.paths ↔ ∃ p, m.PathAt a path p := by
  induction path generalizing a t with
  | nil => exact ⟨fun _ => ⟨a, .root⟩, fun _ => t.nil_mem_paths⟩
  | cons i path ih =>
    rw [Token.cons_mem_paths_iff]
    constructor
    · rintro ⟨items, ht, hi, hpath⟩
      obtain ⟨q, hs, hq⟩ := h.exists_slotAt ht hi
      obtain ⟨p, hp⟩ := (ih hq).mp hpath
      exact ⟨p, .slot hs hp⟩
    · rintro ⟨p, hp⟩
      obtain ⟨q, hs, hp⟩ := pathAt_cons_iff.mp hp
      obtain ⟨items, ht, hi, hq⟩ := h.of_slotAt hs
      exact ⟨items, ht, hi, (ih hq).mpr ⟨p, hp⟩⟩

/-- **A token is as deep as some pointer below it.** -/
theorem TokenAt.exists_pointerAt_depth {root : Nat} {t : Token} (h : m.TokenAt root t) :
    ∃ p, m.PointerAt root t.depth p := by
  by_contra hnone
  have hpos := t.one_le_depth
  have hdepth : t.depth - 1 + 1 = t.depth := by omega
  -- a graph that is not so deep would have a token that is not so deep
  obtain ⟨u, hu, hle⟩ := Memory.exists_tokenAt (n := t.depth - 1)
    (fun _ p _ hp hne => by
      obtain ⟨v, hv, -⟩ := h.of_pointerAt hp
      exact hv.readable hne)
    (fun p hp => hnone ⟨p, hdepth ▸ hp⟩)
  rw [hu.unique h] at hle
  omega

/-! ## 3. The measures -/

/-- **The measures of a token are those of the graph below the root**: the token has so many tokens in
it as there are paths of pointers, each listed once, and so many levels as there are pointers on the
longest of these paths, the root being the first. -/
structure Measures (m : Memory) (root : Nat) (t : Token) : Prop where
  nodup : t.paths.Nodup
  mem_iff : ∀ path, path ∈ t.paths ↔ ∃ p, m.PathAt root path p
  count_eq : t.count = t.paths.length
  attained : ∃ path p, m.PathAt root path p ∧ path.length + 1 = t.depth
  bounded : ∀ path p, m.PathAt root path p → path.length + 1 ≤ t.depth

theorem TokenAt.measures {root : Nat} {t : Token} (h : m.TokenAt root t) : m.Measures root t where
  nodup := t.nodup_paths
  mem_iff _ := h.mem_paths_iff
  count_eq := t.length_paths.symm
  attained := by
    obtain ⟨p, hp⟩ := h.exists_pointerAt_depth
    obtain ⟨path, hlength, hpath⟩ := hp.exists_pathAt
    exact ⟨path, p, hpath, hlength⟩
  bounded _ _ hpath := hpath.pointerAt.depth_le h

end Memory

end TokenImage
