/-
# Records hold their fields

A record is written field by field into memory that is mapped already.  If its fields lie inside it
and beside each other (`FieldWrites.Fit`), then in the end each of them stands where it was written,
whatever the order of the writes, and nothing around the record has changed.

The three kinds of records all fit: `TokenRecord.fields_fit`, `CountedArray.fields_fit` and
`ResultRecord.fields_fit`.
-/
import TokenImage.Record
import TokenImage.Proofs.Memory.Contents

namespace TokenImage

/-! ## 1. One write -/

namespace Memory

variable {m : Memory}

/-- Bytes stand one run after the other. -/
theorem bytesAt_append {a : Nat} {bs cs : List UInt8} :
    m.BytesAt a (bs ++ cs) ↔ m.BytesAt a bs ∧ m.BytesAt (a + bs.length) cs := by
  induction bs generalizing a with
  | nil =>
    rw [List.nil_append, List.length_nil, Nat.add_zero]
    exact ⟨fun h => ⟨bytesAt_nil a, h⟩, fun h => h.2⟩
  | cons b bs ih =>
    rw [List.cons_append, bytesAt_cons, bytesAt_cons, ih, List.length_cons, and_assoc,
      Nat.add_assoc, Nat.add_comm 1]

/-- A write maps nothing and unmaps nothing. -/
theorem Mapped.overwrite {a n b : Nat} (h : m.Mapped a n) (bs : List UInt8) :
    (m.overwrite b bs).Mapped a n := by
  intro x hx hx'
  have hm := h x hx hx'
  unfold Memory.overwrite
  split
  · split
    · rw [Option.isSome_map]
      exact hm
    · exact hm
  · exact hm

/-- A write changes no byte outside. -/
theorem overwrite_of_outside {a x : Nat} {bs : List UInt8} (h : x < a ∨ a + bs.length ≤ x) :
    m.overwrite a bs x = m x := by
  unfold Memory.overwrite
  split
  · rw [List.getElem?_eq_none (by omega)]
  · rfl

theorem bytesAt_overwrite {a : Nat} {bs : List UInt8} (h : m.Mapped a bs.length) :
    (m.overwrite a bs).BytesAt a bs :=
  (load_eq_some_iff.mp (load_overwrite_self h)).2

theorem BytesAt.overwrite_of_disjoint {a b : Nat} {bs cs : List UInt8} (h : m.BytesAt b cs)
    (hd : b + cs.length ≤ a ∨ a + bs.length ≤ b) : (m.overwrite a bs).BytesAt b cs := by
  intro i hi
  rw [overwrite_of_outside (by omega)]
  exact h i hi

end Memory

/-! ## 2. Many writes -/

/-- The record at `a` holds these fields. -/
def Memory.FieldsAt (m : Memory) (a : Nat) (fields : FieldWrites) : Prop :=
  ∀ f ∈ fields, m.BytesAt (a + f.1) f.2

/-- The fields lie inside a record of this size, and beside each other. -/
structure FieldWrites.Fit (fields : FieldWrites) (size : Nat) : Prop where
  inside : ∀ f ∈ fields, f.1 + f.2.length ≤ size
  beside : fields.Pairwise fun f g => f.1 + f.2.length ≤ g.1 ∨ g.1 + g.2.length ≤ f.1

namespace Memory

variable {m : Memory} {a size : Nat} {fields : FieldWrites}

/-- Bytes beside all fields stay. -/
theorem BytesAt.overwriteFields {b : Nat} {cs : List UInt8} (h : m.BytesAt b cs)
    (hd : ∀ f ∈ fields, b + cs.length ≤ a + f.1 ∨ a + f.1 + f.2.length ≤ b) :
    (m.overwriteFields a fields).BytesAt b cs := by
  induction fields generalizing m with
  | nil => exact h
  | cons field fields ih =>
    have hhead := h.overwrite_of_disjoint (hd field List.mem_cons_self)
    exact ih hhead fun f hf => hd f (List.mem_cons_of_mem field hf)

/-- **Each field stands where it was written.** -/
theorem fieldsAt_overwriteFields (hm : m.Mapped a size) (hfit : fields.Fit size) :
    (m.overwriteFields a fields).FieldsAt a fields := by
  induction fields generalizing m with
  | nil => exact fun f hf => absurd hf List.not_mem_nil
  | cons field fields ih =>
    obtain ⟨hinside, hbeside⟩ := hfit
    obtain ⟨hhead, hbeside⟩ := List.pairwise_cons.mp hbeside
    intro f hf
    rcases List.mem_cons.mp hf with rfl | hf
    · have hle := hinside f List.mem_cons_self
      have hfield : m.Mapped (a + f.1) f.2.length := fun x hx hx' =>
        hm x (by omega) (by omega)
      refine (bytesAt_overwrite hfield).overwriteFields ?_
      intro g hg
      have := hhead g hg
      omega
    · exact ih (hm.overwrite field.2)
        ⟨fun g hg => hinside g (List.mem_cons_of_mem field hg), hbeside⟩ f hf

/-- Nothing changes around a record. -/
theorem overwriteFields_of_outside (hinside : ∀ f ∈ fields, f.1 + f.2.length ≤ size) {x : Nat}
    (hx : x < a ∨ a + size ≤ x) : m.overwriteFields a fields x = m x := by
  induction fields generalizing m with
  | nil => rfl
  | cons field fields ih =>
    have hle := hinside field List.mem_cons_self
    have htail := ih (m := m.overwrite (a + field.1) field.2) fun f hf =>
      hinside f (List.mem_cons_of_mem field hf)
    exact htail.trans (overwrite_of_outside (by omega))

/-- The fields of a record stand in every memory that has the bytes of the record. -/
theorem FieldsAt.of_agreeOn {m' : Memory} (h : m.FieldsAt a fields) (hfit : fields.Fit size)
    (hm : m.AgreeOn m' ⟨a, size⟩) : m'.FieldsAt a fields := by
  intro f hf
  have hle := hfit.inside f hf
  exact hm.bytesAt (h f hf) (Nat.le_add_right a f.1) (by
    rw [Nat.add_assoc]
    exact Nat.add_le_add_left hle a)

end Memory

/-! ## 3. The records -/

theorem Payload.length_bytes_le (p : Payload) : p.bytes.length ≤ 16 := by
  cases p <;> simp [bytes]

theorem TokenRecord.fields_fit (r : TokenRecord) : r.fields.Fit libraryLayout.size := by
  have hpayload := r.payload.length_bytes_le
  rw [fields, libraryLayout_eq]
  constructor
  · simp only [List.forall_mem_cons, length_littleEndian, List.length_singleton,
      List.not_mem_nil, false_implies, implies_true, and_true]
    omega
  · simp only [List.pairwise_cons, List.forall_mem_cons, length_littleEndian,
      List.length_singleton, List.not_mem_nil, false_implies, implies_true, and_true,
      List.Pairwise.nil]
    omega

theorem CountedArray.fields_fit (r : CountedArray) : r.fields.Fit arrayLayout.size := by
  rw [fields]
  constructor
  · simp only [List.forall_mem_cons, length_littleEndian, List.not_mem_nil, false_implies,
      implies_true, and_true]
    decide
  · simp only [List.pairwise_cons, List.forall_mem_cons, length_littleEndian, List.not_mem_nil,
      false_implies, implies_true, and_true, List.Pairwise.nil]
    decide

theorem ResultRecord.fields_fit (r : ResultRecord) : r.fields.Fit resultLayout.size := by
  rw [fields]
  constructor
  · simp only [List.forall_mem_cons, length_littleEndian, List.not_mem_nil, false_implies,
      implies_true, and_true]
    decide
  · simp only [List.pairwise_cons, List.forall_mem_cons, length_littleEndian, List.not_mem_nil,
      false_implies, implies_true, and_true, List.Pairwise.nil]
    decide

end TokenImage
