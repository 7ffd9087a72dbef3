/-
# Byte-addressed memory

A memory maps some addresses to bytes.  A read of several bytes goes upwards and fails at the first
address that is not mapped; numbers are little endian.  Addresses are natural numbers, and 0 is the
null pointer: it is an address like any other here, and readers of pointers look for it before they
follow one.

`load_congr` says what a read depends on, and `load_overwrite_self` that a read after a write of the
same bytes gives what was written.
-/
namespace TokenImage

/-! ## 1. Bytes and numbers -/

/-- The number that bytes give, least significant byte first. -/
def ofLittleEndian : List UInt8 → Nat
  | [] => 0
  | b :: bs => b.toNat + 256 * ofLittleEndian bs

/-- The lowest `width` bytes of a number, least significant byte first. -/
def littleEndian : (width : Nat) → Nat → List UInt8
  | 0, _ => []
  | width + 1, n => n.toUInt8 :: littleEndian width (n / 256)

@[simp] theorem length_littleEndian (width n : Nat) : (littleEndian width n).length = width := by
  induction width generalizing n with
  | zero => rfl
  | succ width ih => simp [littleEndian, ih]

/-! ## 2. Reads -/

/-- Bytes by address. -/
abbrev Memory := Nat → Option UInt8

namespace Memory

/-- The `n` bytes from `a` on. -/
def load (m : Memory) (a : Nat) : Nat → Option (List UInt8)
  | 0 => some []
  | n + 1 => do
    let b ← m a
    let bs ← load m (a + 1) n
    some (b :: bs)

/-- The 32-bit number at `a`. -/
def loadUInt32 (m : Memory) (a : Nat) : Option UInt32 :=
  (m.load a 4).map fun bs => (ofLittleEndian bs).toUInt32

/-- The unsigned 64-bit number at `a`. -/
def loadUInt64 (m : Memory) (a : Nat) : Option UInt64 :=
  (m.load a 8).map fun bs => (ofLittleEndian bs).toUInt64

/-- The signed 64-bit number at `a`: the same eight bytes in two's complement. -/
def loadInt64 (m : Memory) (a : Nat) : Option Int64 :=
  (m.loadUInt64 a).map UInt64.toInt64

/-- The signed byte at `a`. -/
def loadInt8 (m : Memory) (a : Nat) : Option Int8 :=
  (m a).map UInt8.toInt8

/-- The pointer at `a`. -/
def loadPointer (m : Memory) (a : Nat) : Option Nat :=
  (m.loadUInt64 a).map UInt64.toNat

/-! ## 3. Writes -/

/-- The memory after a write of `bs` from `a` on; addresses that are not mapped stay so. -/
def overwrite (m : Memory) (a : Nat) (bs : List UInt8) : Memory := fun x =>
  if a ≤ x then
    match bs[x - a]? with
    | some b => (m x).map fun _ => b
    | none => m x
  else m x

/-- Whether all of the `n` addresses from `a` on are mapped. -/
def Mapped (m : Memory) (a : Nat) (n : Nat) : Prop :=
  ∀ x, a ≤ x → x < a + n → (m x).isSome

theorem load_congr {m m' : Memory} {a : Nat} {n : Nat}
    (h : ∀ x, a ≤ x → x < a + n → m x = m' x) : m.load a n = m'.load a n := by
  induction n generalizing a with
  | zero => rfl
  | succ n ih =>
    have h0 := h a (Nat.le_refl _) (by omega)
    have ih' := ih (a := a + 1) fun x hx hx' => h x (by omega) (by omega)
    simp [load, h0, ih']

theorem load_eq_some_of_getElem? {m : Memory} {a : Nat} {bs : List UInt8}
    (h : ∀ i, i < bs.length → m (a + i) = bs[i]?) : m.load a bs.length = some bs := by
  induction bs generalizing a with
  | nil => rfl
  | cons b bs ih =>
    have h0 : m a = some b := by simpa using h 0 (by simp)
    have ih' := ih (a := a + 1) fun i hi => by
      have := h (i + 1) (by simpa using hi)
      simpa [Nat.add_assoc, Nat.add_comm 1 i] using this
    simp [load, h0, ih']

/-- **A write is read back**, where all of it went to mapped addresses. -/
theorem load_overwrite_self {m : Memory} {a : Nat} {bs : List UInt8}
    (h : m.Mapped a bs.length) : (m.overwrite a bs).load a bs.length = some bs := by
  refine load_eq_some_of_getElem? fun i hi => ?_
  obtain ⟨old, hold⟩ := Option.isSome_iff_exists.mp (h (a + i) (by omega) (by omega))
  simp [overwrite, hi, hold]

end Memory

end TokenImage
