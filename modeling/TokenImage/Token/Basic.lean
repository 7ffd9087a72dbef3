/-
# Owned token trees

A token is what one node of a parse tree has become once it is read out of an engine's memory: a
position in the input and a value.  The tree owns everything it shows and points at nothing.

`Value` is written over the type of the tokens that a sequence holds, so that `Token` is its own
knot and every function on trees is one structural recursion over a token and its items.
-/
namespace TokenImage

/-! ## 1. The tree -/

/-- What a token carries; a sequence carries tokens of type `τ`, in order. -/
inductive Value (τ : Type) where
  | none
  | bytes (span : List UInt8)
  | signed (number : Int64)
  | unsigned (number : UInt64)
  | sequence (items : List τ)

/-- A token: where it starts in the input, as a byte and a bit offset, and what it carries. -/
structure Token where
  byteOffset : Int64 := 0
  bitOffset : Int8 := 0
  value : Value Token := .none

namespace Token

/-- **The zero token** carries nothing, at the start of the input. -/
def zero : Token := {}

instance : Inhabited Token := ⟨zero⟩

/-- The same value at another position. -/
def placedAt (t : Token) (byteOffset : Int64) (bitOffset : Int8) : Token :=
  { t with byteOffset, bitOffset }

/-! ## 2. Taking a value apart -/

/-- Whether the token carries nothing. -/
def isNone (t : Token) : Bool :=
  match t.value with
  | .none => true
  | _ => false

/-- The bytes of a byte token. -/
def asBytes (t : Token) : Option (List UInt8) :=
  match t.value with
  | .bytes span => some span
  | _ => none

/-- The number of a signed token. -/
def asSigned (t : Token) : Option Int64 :=
  match t.value with
  | .signed number => some number
  | _ => none

/-- The number of an unsigned token. -/
def asUnsigned (t : Token) : Option UInt64 :=
  match t.value with
  | .unsigned number => some number
  | _ => none

/-- The items of a sequence. -/
def asSequence (t : Token) : Option (List Token) :=
  match t.value with
  | .sequence items => some items
  | _ => none

/-! ## 3. Measures -/

mutual

/-- Nesting depth; a leaf and an empty sequence have depth 1. -/
def depth : Token → Nat
  | ⟨_, _, .none⟩ => 1
  | ⟨_, _, .bytes _⟩ => 1
  | ⟨_, _, .signed _⟩ => 1
  | ⟨_, _, .unsigned _⟩ => 1
  | ⟨_, _, .sequence items⟩ => 1 + maxDepth items

/-- The greatest depth among tokens, 0 if there are none. -/
def maxDepth : List Token → Nat
  | [] => 0
  | t :: ts => max t.depth (maxDepth ts)

end

mutual

/-- Number of tokens in the tree, this one included. -/
def count : Token → Nat
  | ⟨_, _, .none⟩ => 1
  | ⟨_, _, .bytes _⟩ => 1
  | ⟨_, _, .signed _⟩ => 1
  | ⟨_, _, .unsigned _⟩ => 1
  | ⟨_, _, .sequence items⟩ => 1 + totalCount items

/-- The number of tokens in all of the trees together. -/
def totalCount : List Token → Nat
  | [] => 0
  | t :: ts => t.count + totalCount ts

end

/-! ## 4. Equality -/

mutual

/-- Whether two trees agree in every position and every value. -/
def same : Token → Token → Bool
  | ⟨b, o, .none⟩, ⟨b', o', .none⟩ => b == b' && o == o'
  | ⟨b, o, .bytes s⟩, ⟨b', o', .bytes s'⟩ => b == b' && o == o' && s == s'
  | ⟨b, o, .signed n⟩, ⟨b', o', .signed n'⟩ => b == b' && o == o' && n == n'
  | ⟨b, o, .unsigned n⟩, ⟨b', o', .unsigned n'⟩ => b == b' && o == o' && n == n'
  | ⟨b, o, .sequence ts⟩, ⟨b', o', .sequence ts'⟩ => b == b' && o == o' && allSame ts ts'
  | _, _ => false

/-- Whether two lists of trees agree item by item. -/
def allSame : List Token → List Token → Bool
  | [], [] => true
  | t :: ts, u :: us => t.same u && allSame ts us
  | _, _ => false

end

mutual

theorem eq_of_same : ∀ (t u : Token), t.same u = true → t = u
  | ⟨_, _, v⟩, ⟨_, _, w⟩, h => by
    cases v <;> cases w <;> simp only [same, Bool.and_eq_true, beq_iff_eq, Bool.false_eq_true] at h
    case none.none => rw [h.1, h.2]
    case bytes.bytes => rw [h.1.1, h.1.2, h.2]
    case signed.signed => rw [h.1.1, h.1.2, h.2]
    case unsigned.unsigned => rw [h.1.1, h.1.2, h.2]
    case sequence.sequence ts us => rw [h.1.1, h.1.2, eq_of_allSame ts us h.2]

theorem eq_of_allSame : ∀ (ts us : List Token), allSame ts us = true → ts = us
  | [], [], _ => rfl
  | [], _ :: _, h => by simp [allSame] at h
  | _ :: _, [], h => by simp [allSame] at h
  | t :: ts, u :: us, h => by
    simp only [allSame, Bool.and_eq_true] at h
    rw [eq_of_same t u h.1, eq_of_allSame ts us h.2]

end

mutual

theorem same_refl : ∀ t : Token, t.same t = true
  | ⟨_, _, .none⟩ => by simp [same]
  | ⟨_, _, .bytes _⟩ => by simp [same]
  | ⟨_, _, .signed _⟩ => by simp [same]
  | ⟨_, _, .unsigned _⟩ => by simp [same]
  | ⟨_, _, .sequence ts⟩ => by simp [same, allSame_refl ts]

theorem allSame_refl : ∀ ts : List Token, allSame ts ts = true
  | [] => rfl
  | t :: ts => by simp [allSame, same_refl t, allSame_refl ts]

end

/-- **Agreement is equality**, so tokens have decidable equality. -/
theorem same_iff_eq {t u : Token} : t.same u = true ↔ t = u :=
  ⟨eq_of_same t u, fun h => h ▸ same_refl t⟩

instance : DecidableEq Token := fun _ _ => decidable_of_iff _ same_iff_eq

end Token

end TokenImage
