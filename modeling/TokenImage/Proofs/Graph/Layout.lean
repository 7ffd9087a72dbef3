/-
# The layout reading

What a token is that an engine has laid out, said of the bytes alone.  A token record has 48 bytes:
a tag of 4 bytes first, a payload of 16 bytes at 8, the index at 24 and the bit offset at 40.  A
payload begins with a number, or with a pointer: to the bytes of a span, whose length is the next
word, or to a counted array, which has its used count at 8 and the pointer to its slots at 24.

`TokenAt` is the reading as a relation, by recursion over the tree that comes out of it.  It runs
nothing and knows no order of reads; `Decoder/Walk.lean` shows that the decoder computes it.  The
second half of the file is about the graph that is read: which pointers stand in the slots of a
token (`Child`), how far below a root a pointer is (`PointerAt`), and which blocks of memory have
to be read at a token (`ReadAt`).
-/
import TokenImage.Decoder
import TokenImage.Proofs.Memory.Contents
import Mathlib.Logic.Relation

namespace TokenImage.Memory

variable {m m' : Memory}

/-! ## 1. One record -/

/-- The token record at `a` has this tag and this position.  The byte offset is the index of 64
bits, and the bit offset the byte at its place, each taken as a signed number of its width. -/
structure HeaderAt (m : Memory) (a tag : Nat) (byteOffset : Int64) (bitOffset : Int8) : Prop where
  tag_at : m.NumberAt a 4 tag
  index_at : ∃ index, m.NumberAt (a + 24) 8 index ∧
    byteOffset.toInt = (index : Int).bmod (2 ^ 64)
  bit_at : ∃ b, m (a + 40) = some b ∧ bitOffset.toInt = (b.toNat : Int).bmod (2 ^ 8)

/-- The payload of the token record at `a` is a span of these bytes.  A null pointer is an empty
span, whatever the length beside it. -/
inductive SpanAt (m : Memory) (a : Nat) : List UInt8 → Prop
  | null (hp : m.NumberAt (a + 8) 8 0) : SpanAt m a []
  | bytes {pointer : Nat} {span : List UInt8} (hp : m.NumberAt (a + 8) 8 pointer)
      (hne : pointer ≠ 0) (hl : m.NumberAt (a + 16) 8 span.length)
      (hs : m.BytesAt pointer span) : SpanAt m a span

/-- The payload of the token record at `a` is an array that uses so many slots, the first of them
at `elements`.  Without an array, or without slots in the array, none is used, whatever the array
says. -/
inductive SlotsAt (m : Memory) (a : Nat) : (elements used : Nat) → Prop
  | nullArray (hp : m.NumberAt (a + 8) 8 0) : SlotsAt m a 0 0
  | nullElements {array : Nat} (hp : m.NumberAt (a + 8) 8 array) (hne : array ≠ 0)
      (he : m.NumberAt (array + 24) 8 0) : SlotsAt m a 0 0
  | slots {array elements used : Nat} (hp : m.NumberAt (a + 8) 8 array) (hne : array ≠ 0)
      (he : m.NumberAt (array + 24) 8 elements) (hne' : elements ≠ 0)
      (hu : m.NumberAt (array + 8) 8 used) : SlotsAt m a elements used

/-! ## 2. The reading -/

/-- The token record at `a` has this value if `tag` is its tag and `R` says which token is at a
pointer.  The items of a sequence are the tokens at its slots, one each, in ascending order. -/
inductive ValueAt (m : Memory) (R : Nat → Token → Prop) : (tag a : Nat) → Value Token → Prop
  | none {a : Nat} : ValueAt m R 1 a .none
  | bytes {a : Nat} {span : List UInt8} (hs : m.SpanAt a span) : ValueAt m R 2 a (.bytes span)
  | signed {a n : Nat} {number : Int64} (hn : m.NumberAt (a + 8) 8 n)
      (hv : number.toInt = (n : Int).bmod (2 ^ 64)) : ValueAt m R 4 a (.signed number)
  | unsigned {a : Nat} {number : UInt64} (hn : m.NumberAt (a + 8) 8 number.toNat) :
      ValueAt m R 8 a (.unsigned number)
  | sequence {a elements : Nat} {items : List Token} (pointers : Nat → Nat)
      (hs : m.SlotsAt a elements items.length)
      (hp : ∀ i, i < items.length → m.NumberAt (elements + 8 * i) 8 (pointers i))
      (hitems : ∀ i (h : i < items.length), R (pointers i) items[i]) :
      ValueAt m R 16 a (.sequence items)
  | unsupported {a tag : Nat} (h : tag ∉ [1, 2, 4, 8, 16]) : ValueAt m R tag a .none

/-- **The layout reading**: the token `t` is at the pointer `a`.  The null pointer is the zero
token. -/
inductive TokenAt (m : Memory) : Nat → Token → Prop
  | null : TokenAt m 0 Token.zero
  | record {a tag : Nat} {byteOffset : Int64} {bitOffset : Int8} {value : Value Token} (ha : a ≠ 0)
      (hh : m.HeaderAt a tag byteOffset bitOffset) (hv : ValueAt m (TokenAt m) tag a value) :
      TokenAt m a ⟨byteOffset, bitOffset, value⟩

/-! ## 3. The graph -/

/-- The pointer `p` stands in a used slot of the sequence token at `a`. -/
def Child (m : Memory) (a p : Nat) : Prop :=
  a ≠ 0 ∧ m.NumberAt a 4 16 ∧ ∃ elements used i, m.SlotsAt a elements used ∧ i < used ∧
    m.NumberAt (elements + 8 * i) 8 p

/-- The pointer `p` is at this depth below `root`: the root is at depth 1, and what stands in a
slot is one deeper than the token of the slot.  A pointer may be at several depths. -/
inductive PointerAt (m : Memory) (root : Nat) : (depth p : Nat) → Prop
  | root : PointerAt m root 1 root
  | slot {depth a p : Nat} (h : PointerAt m root depth a) (hc : m.Child a p) :
      PointerAt m root (depth + 1) p

/-- The pointer `p` is the root or stands somewhere below it. -/
def Reachable (m : Memory) : (root p : Nat) → Prop :=
  Relation.ReflTransGen m.Child

/-! ## 4. What is read -/

/-- The blocks of memory that have to be read at the token record at `a`: its tag, its index and its
bit offset, and of the payload what the tag asks for.  The length of a span is not read beside a null
pointer, so that less has to be mapped than the whole of a token. -/
inductive ReadAt (m : Memory) (a : Nat) : Extent → Prop
  | tag : ReadAt m a ⟨a, 4⟩
  | index : ReadAt m a ⟨a + 24, 8⟩
  | bitOffset : ReadAt m a ⟨a + 40, 1⟩
  | payload {tag : Nat} (ht : m.NumberAt a 4 tag) (h : tag ∈ [2, 4, 8, 16]) : ReadAt m a ⟨a + 8, 8⟩
  | length {pointer : Nat} (ht : m.NumberAt a 4 2) (hp : m.NumberAt (a + 8) 8 pointer)
      (hne : pointer ≠ 0) : ReadAt m a ⟨a + 16, 8⟩
  | span {pointer length : Nat} (ht : m.NumberAt a 4 2) (hp : m.NumberAt (a + 8) 8 pointer)
      (hne : pointer ≠ 0) (hl : m.NumberAt (a + 16) 8 length) : ReadAt m a ⟨pointer, length⟩
  | elements {array : Nat} (ht : m.NumberAt a 4 16) (hp : m.NumberAt (a + 8) 8 array)
      (hne : array ≠ 0) : ReadAt m a ⟨array + 24, 8⟩
  | used {array elements : Nat} (ht : m.NumberAt a 4 16) (hp : m.NumberAt (a + 8) 8 array)
      (hne : array ≠ 0) (he : m.NumberAt (array + 24) 8 elements) (hne' : elements ≠ 0) :
      ReadAt m a ⟨array + 8, 8⟩
  | slot {elements used i : Nat} (ht : m.NumberAt a 4 16) (hs : m.SlotsAt a elements used)
      (hi : i < used) : ReadAt m a ⟨elements + 8 * i, 8⟩

/-- All that has to be read at the token record at `a` is mapped. -/
def Readable (m : Memory) (a : Nat) : Prop :=
  ∀ e, m.ReadAt a e → m.Mapped e.base e.size

/-- **A graph of tokens that can be read**: what is read of the tokens below the root is mapped, and
no token is below itself.  Tokens may be null and may be shared.  That there are only finitely many
of them needs no saying, because there are only finitely many pointers. -/
structure WellFormed (m : Memory) (root : Nat) : Prop where
  readable : ∀ a, m.Reachable root a → a ≠ 0 → m.Readable a
  acyclic : ∀ a, m.Reachable root a → ¬ Relation.TransGen m.Child a a

/-! ## 5. One reading at an address -/

/-- A payload is one array. -/
theorem SlotsAt.unique {a elements elements' used used' : Nat} (h : m.SlotsAt a elements used)
    (h' : m.SlotsAt a elements' used') : elements = elements' ∧ used = used' := by
  cases h with
  | nullArray hp =>
    cases h' with
    | nullArray => exact ⟨rfl, rfl⟩
    | nullElements hp' hne' => exact absurd (hp'.unique hp) hne'
    | slots hp' hne' => exact absurd (hp'.unique hp) hne'
  | nullElements hp hne he =>
    cases h' with
    | nullArray hp' => exact absurd (hp.unique hp') hne
    | nullElements => exact ⟨rfl, rfl⟩
    | slots hp' _ he' hne' =>
      obtain rfl := hp.unique hp'
      exact absurd (he'.unique he) hne'
  | slots hp hne he hne' hu =>
    cases h' with
    | nullArray hp' => exact absurd (hp.unique hp') hne
    | nullElements hp' _ he' =>
      obtain rfl := hp.unique hp'
      exact absurd (he.unique he') hne'
    | slots hp' _ he' _ hu' =>
      obtain rfl := hp.unique hp'
      exact ⟨he.unique he', hu.unique hu'⟩

/-! ## 6. Depth and reachability -/

/-- What has a depth is reachable. -/
theorem PointerAt.reachable {root depth p : Nat} (h : m.PointerAt root depth p) :
    m.Reachable root p := by
  induction h with
  | root => exact .refl
  | slot _ hc ih => exact ih.tail hc

/-- What is reachable has a depth. -/
theorem Reachable.exists_pointerAt {root p : Nat} (h : m.Reachable root p) :
    ∃ depth, m.PointerAt root depth p := by
  induction h with
  | refl => exact ⟨1, .root⟩
  | tail _ hc ih =>
    obtain ⟨depth, hd⟩ := ih
    exact ⟨depth + 1, hd.slot hc⟩

/-- A pointer below a child is one deeper below the token of the child. -/
theorem PointerAt.of_child {root a depth p : Nat} (hc : m.Child root a)
    (h : m.PointerAt a depth p) : m.PointerAt root (depth + 1) p := by
  induction h with
  | root => exact PointerAt.root.slot hc
  | slot _ hc' ih => exact ih.slot hc'

end TokenImage.Memory
