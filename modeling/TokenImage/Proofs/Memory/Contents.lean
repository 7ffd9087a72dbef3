/-
# What stands in memory

The loads of `Memory/Basic.lean` are functions, made for running.  This file says the same things
as facts: which bytes stand from an address on (`BytesAt`) and which little-endian number they make
(`NumberAt`).  Every load is then one equivalence: it gives a value exactly when that value stands
there.  A reading of a record can so be stated without any of the functions that read it.

* `load_eq_some_iff` and the `load…_eq_some_iff` after it are the equivalences;
* `NumberAt.unique` says that an address holds one number of a width;
* `AgreeOn` compares two memories on a block, and what stands inside it stands in both.
-/
import TokenImage.Memory.Heap
import Mathlib.Algebra.Ring.Nat

namespace TokenImage

/-! ## 1. Numbers of a width -/

/-- **Reading what was written gives the number back**, reduced to the width. -/
theorem ofLittleEndian_littleEndian (width n : Nat) :
    ofLittleEndian (littleEndian width n) = n % 256 ^ width := by
  induction width generalizing n with
  | zero => simp [littleEndian, ofLittleEndian, Nat.mod_one]
  | succ width ih =>
    have hmod : (n.toUInt8).toNat = n % 256 := by simp [Nat.toUInt8, UInt8.toNat_ofNat']
    rw [littleEndian, ofLittleEndian, ih, hmod, Nat.pow_succ, Nat.mul_comm (256 ^ width) 256,
      Nat.mod_mul]

/-- A number of so many bytes is below the power of 256. -/
theorem ofLittleEndian_lt (bs : List UInt8) : ofLittleEndian bs < 256 ^ bs.length := by
  induction bs with
  | nil => simp [ofLittleEndian]
  | cons b bs ih =>
    have hb := b.toNat_lt
    rw [ofLittleEndian, List.length_cons, Nat.pow_succ]
    omega

/-- The signed number of 64 bits is the unsigned one modulo `2 ^ 64`, around zero. -/
theorem toInt_toInt64 (v : UInt64) : v.toInt64.toInt = (v.toNat : Int).bmod (2 ^ 64) :=
  BitVec.toInt_eq_toNat_bmod v.toBitVec

/-- The signed number of 8 bits is the byte modulo `2 ^ 8`, around zero. -/
theorem toInt_toInt8 (b : UInt8) : b.toInt8.toInt = (b.toNat : Int).bmod (2 ^ 8) :=
  BitVec.toInt_eq_toNat_bmod b.toBitVec

namespace Memory

variable {m m' : Memory}

/-! ## 2. Facts about memory -/

/-- The bytes `bs` stand from `a` on. -/
def BytesAt (m : Memory) (a : Nat) (bs : List UInt8) : Prop :=
  ∀ i (h : i < bs.length), m (a + i) = some bs[i]

/-- The `width` bytes from `a` on are the number `n`, least significant byte first. -/
def NumberAt (m : Memory) (a width n : Nat) : Prop :=
  ∃ bs, bs.length = width ∧ m.BytesAt a bs ∧ ofLittleEndian bs = n

theorem bytesAt_nil (a : Nat) : m.BytesAt a [] := fun _ h => absurd h (by simp)

theorem bytesAt_cons {a : Nat} {b : UInt8} {bs : List UInt8} :
    m.BytesAt a (b :: bs) ↔ m a = some b ∧ m.BytesAt (a + 1) bs := by
  constructor
  · intro h
    refine ⟨h 0 (by simp), fun i hi => ?_⟩
    have := h (i + 1) (by simpa using hi)
    rwa [Nat.add_assoc, Nat.add_comm 1 i]
  · rintro ⟨h0, h⟩ i hi
    cases i with
    | zero => exact h0
    | succ i =>
      have := h i (by simpa using hi)
      rwa [Nat.add_assoc, Nat.add_comm 1 i] at this

/-- Bytes of one length at one address are the same bytes. -/
theorem BytesAt.unique {a : Nat} {bs bs' : List UInt8} (h : m.BytesAt a bs)
    (h' : m.BytesAt a bs') (hlen : bs.length = bs'.length) : bs = bs' := by
  refine List.ext_getElem hlen ?_
  intro i hi hi'
  exact Option.some.inj ((h i hi).symm.trans (h' i hi'))

/-- **An address holds one number of a width.** -/
theorem NumberAt.unique {a width n n' : Nat} (h : m.NumberAt a width n)
    (h' : m.NumberAt a width n') : n = n' := by
  obtain ⟨bs, hlen, hbs, rfl⟩ := h
  obtain ⟨bs', hlen', hbs', rfl⟩ := h'
  rw [hbs.unique hbs' (hlen.trans hlen'.symm)]

theorem NumberAt.lt {a width n : Nat} (h : m.NumberAt a width n) : n < 256 ^ width := by
  obtain ⟨bs, rfl, -, rfl⟩ := h
  exact ofLittleEndian_lt bs

/-- The bytes of a number hold it, where the width is enough. -/
theorem BytesAt.numberAt {a width n : Nat} (h : m.BytesAt a (littleEndian width n))
    (hn : n < 256 ^ width) : m.NumberAt a width n :=
  ⟨_, length_littleEndian width n, h, by
    rw [ofLittleEndian_littleEndian, Nat.mod_eq_of_lt hn]⟩

/-! ## 3. Loads -/

/-- **A load gives the bytes that stand there.** -/
theorem load_eq_some_iff {a n : Nat} {bs : List UInt8} :
    m.load a n = some bs ↔ bs.length = n ∧ m.BytesAt a bs := by
  induction n generalizing a bs with
  | zero =>
    constructor
    · intro h
      obtain rfl := Option.some.inj h
      exact ⟨rfl, bytesAt_nil a⟩
    · rintro ⟨h, -⟩
      rw [List.eq_nil_of_length_eq_zero h]
      rfl
  | succ n ih =>
    simp only [load, Option.bind_eq_bind, Option.bind_eq_some_iff, Option.some.injEq]
    constructor
    · rintro ⟨b, hb, bs', hbs', rfl⟩
      obtain ⟨hlen, hat⟩ := ih.mp hbs'
      exact ⟨by rw [List.length_cons, hlen], bytesAt_cons.mpr ⟨hb, hat⟩⟩
    · rintro ⟨hlen, hat⟩
      cases bs with
      | nil => simp at hlen
      | cons b bs =>
        obtain ⟨hb, hat⟩ := bytesAt_cons.mp hat
        exact ⟨b, hb, bs, ih.mpr ⟨by simpa using hlen, hat⟩, rfl⟩

/-- A number of 64 bits is loaded where it stands. -/
theorem loadUInt64_eq_some_iff {a : Nat} {v : UInt64} :
    m.loadUInt64 a = some v ↔ m.NumberAt a 8 v.toNat := by
  simp only [loadUInt64, Option.map_eq_some_iff, load_eq_some_iff]
  constructor
  · rintro ⟨bs, ⟨hlen, hat⟩, rfl⟩
    refine ⟨bs, hlen, hat, ?_⟩
    have hlt := ofLittleEndian_lt bs
    rw [hlen] at hlt
    exact (UInt64.toNat_ofNat_of_lt' hlt).symm
  · rintro ⟨bs, hlen, hat, hv⟩
    exact ⟨bs, ⟨hlen, hat⟩, by rw [hv]; exact UInt64.ofNat_toNat⟩

/-- A number of 32 bits is loaded where it stands. -/
theorem loadUInt32_eq_some_iff {a : Nat} {v : UInt32} :
    m.loadUInt32 a = some v ↔ m.NumberAt a 4 v.toNat := by
  simp only [loadUInt32, Option.map_eq_some_iff, load_eq_some_iff]
  constructor
  · rintro ⟨bs, ⟨hlen, hat⟩, rfl⟩
    refine ⟨bs, hlen, hat, ?_⟩
    have hlt := ofLittleEndian_lt bs
    rw [hlen] at hlt
    exact (UInt32.toNat_ofNat_of_lt' hlt).symm
  · rintro ⟨bs, hlen, hat, hv⟩
    exact ⟨bs, ⟨hlen, hat⟩, by rw [hv]; exact UInt32.ofNat_toNat⟩

/-- A pointer is loaded where it stands. -/
theorem loadPointer_eq_some_iff {a p : Nat} :
    m.loadPointer a = some p ↔ m.NumberAt a 8 p := by
  simp only [loadPointer, Option.map_eq_some_iff, loadUInt64_eq_some_iff]
  constructor
  · rintro ⟨v, hv, rfl⟩
    exact hv
  · intro h
    exact ⟨UInt64.ofNat p, by rwa [UInt64.toNat_ofNat_of_lt' h.lt],
      UInt64.toNat_ofNat_of_lt' h.lt⟩

/-- A signed number of 64 bits is loaded where the number stands that it is modulo `2 ^ 64`. -/
theorem loadInt64_eq_some_iff {a : Nat} {v : Int64} :
    m.loadInt64 a = some v ↔ ∃ n, m.NumberAt a 8 n ∧ v.toInt = (n : Int).bmod (2 ^ 64) := by
  simp only [loadInt64, Option.map_eq_some_iff, loadUInt64_eq_some_iff]
  constructor
  · rintro ⟨u, hu, rfl⟩
    exact ⟨u.toNat, hu, toInt_toInt64 u⟩
  · rintro ⟨n, hn, hv⟩
    have htoNat : (UInt64.ofNat n).toNat = n := UInt64.toNat_ofNat_of_lt' hn.lt
    refine ⟨UInt64.ofNat n, by rwa [htoNat], Int64.toInt_inj.mp ?_⟩
    rw [toInt_toInt64, htoNat, hv]

/-- A signed byte is loaded where the byte stands that it is modulo `2 ^ 8`. -/
theorem loadInt8_eq_some_iff {a : Nat} {v : Int8} :
    m.loadInt8 a = some v ↔ ∃ b, m a = some b ∧ v.toInt = (b.toNat : Int).bmod (2 ^ 8) := by
  simp only [loadInt8, Option.map_eq_some_iff]
  constructor
  · rintro ⟨b, hb, rfl⟩
    exact ⟨b, hb, toInt_toInt8 b⟩
  · rintro ⟨b, hb, hv⟩
    exact ⟨b, hb, Int8.toInt_inj.mp (by rw [toInt_toInt8, hv])⟩

/-! ## 4. Mapped memory -/

/-- Where memory is mapped there are bytes. -/
theorem Mapped.exists_bytesAt {a n : Nat} (h : m.Mapped a n) :
    ∃ bs, bs.length = n ∧ m.BytesAt a bs := by
  induction n generalizing a with
  | zero => exact ⟨[], rfl, bytesAt_nil a⟩
  | succ n ih =>
    obtain ⟨b, hb⟩ := Option.isSome_iff_exists.mp (h a (Nat.le_refl a) (by omega))
    obtain ⟨bs, hlen, hbs⟩ := ih (a := a + 1) fun x hx hx' => h x (by omega) (by omega)
    exact ⟨b :: bs, by rw [List.length_cons, hlen], bytesAt_cons.mpr ⟨hb, hbs⟩⟩

/-- Where memory is mapped there is a number. -/
theorem Mapped.exists_numberAt {a n : Nat} (h : m.Mapped a n) : ∃ v, m.NumberAt a n v := by
  obtain ⟨bs, hlen, hbs⟩ := h.exists_bytesAt
  exact ⟨_, bs, hlen, hbs, rfl⟩

/-- Bytes stand in mapped memory only. -/
theorem BytesAt.mapped {a : Nat} {bs : List UInt8} (h : m.BytesAt a bs) :
    m.Mapped a bs.length := by
  intro x hx hx'
  have := h (x - a) (by omega)
  rw [Nat.add_sub_cancel' hx] at this
  rw [this]
  rfl

theorem NumberAt.mapped {a width n : Nat} (h : m.NumberAt a width n) : m.Mapped a width := by
  obtain ⟨bs, rfl, hbs, -⟩ := h
  exact hbs.mapped

/-! ## 5. Agreement on a block -/

/-- The two memories have the same bytes, and the same gaps, throughout a block. -/
def AgreeOn (m m' : Memory) (e : Extent) : Prop :=
  ∀ x, e.base ≤ x → x < e.base + e.size → m x = m' x

theorem AgreeOn.refl (m : Memory) (e : Extent) : m.AgreeOn m e := fun _ _ _ => rfl

theorem AgreeOn.trans {m'' : Memory} {e : Extent} (h : m.AgreeOn m' e) (h' : m'.AgreeOn m'' e) :
    m.AgreeOn m'' e :=
  fun x hx hx' => (h x hx hx').trans (h' x hx hx')

theorem agreeOn_iff {e : Extent} :
    m.AgreeOn m' e ↔ ∀ i, i < e.size → m (e.base + i) = m' (e.base + i) := by
  constructor
  · exact fun h i hi => h _ (by omega) (by omega)
  · intro h x hx hx'
    have := h (x - e.base) (by omega)
    rwa [Nat.add_sub_cancel' hx] at this

instance (m m' : Memory) (e : Extent) : Decidable (m.AgreeOn m' e) :=
  decidable_of_iff _ agreeOn_iff.symm

/-- Bytes inside a block of agreement stand in both memories. -/
theorem AgreeOn.bytesAt {e : Extent} (h : m.AgreeOn m' e) {a : Nat} {bs : List UInt8}
    (hat : m.BytesAt a bs) (hbase : e.base ≤ a) (hend : a + bs.length ≤ e.base + e.size) :
    m'.BytesAt a bs := by
  intro i hi
  rw [← h (a + i) (by omega) (by omega)]
  exact hat i hi

end Memory

end TokenImage
