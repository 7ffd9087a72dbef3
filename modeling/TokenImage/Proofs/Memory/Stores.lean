/-
# Stores and loads

The fields of a record lie inside it and beside each other.  `Placement` is what the layout of a record
comes to, with the proof that this is so; and for any such layout a store to one field is what its
load gives afterwards, and no other load gives anything else than before (`Placement.Holds.store`).
Nothing is asked of the bytes that were there before, or between the fields.

Token records and counted arrays are placed in this way.  The payload of a token is two words, of
which the first is a number or a pointer and the second the length of a span; the stores put it where
the library declares it, and the loads look for it where the engine declares it.  So the contents of a
token are six values that are stored and loaded each for itself, whatever the tag says of them
(`TokenContents`), and after any stores in a row each load gives what was stored there last.
-/
import TokenImage.Decoder
import TokenImage.Proofs.Memory.Fields
import Mathlib.Algebra.Ring.Int.Defs
import Mathlib.Logic.Function.Basic
import Mathlib.Tactic.Choose

namespace TokenImage

/-! ## 1. Fields in a record -/

/-- Where the fields of a record are: inside it, and beside each other. -/
structure Placement (ι : Type) where
  offset : ι → Nat
  width : ι → Nat
  size : Nat
  inside : ∀ i, offset i + width i ≤ size
  beside : ∀ i j, i ≠ j → offset i + width i ≤ offset j ∨ offset j + width j ≤ offset i

namespace Memory

variable {m : Memory}

/-- A number stays where nothing is written. -/
theorem NumberAt.overwrite_of_disjoint {a b width n : Nat} {bs : List UInt8}
    (h : m.NumberAt b width n) (hd : b + width ≤ a ∨ a + bs.length ≤ b) :
    (m.overwrite a bs).NumberAt b width n := by
  obtain ⟨cs, rfl, hat, hn⟩ := h
  exact ⟨cs, rfl, hat.overwrite_of_disjoint hd, hn⟩

/-- A number stands where it was written. -/
theorem numberAt_overwrite {a width n : Nat} (hm : m.Mapped a width) (hn : n < 256 ^ width) :
    (m.overwrite a (littleEndian width n)).NumberAt a width n :=
  (bytesAt_overwrite (by rwa [length_littleEndian])).numberAt hn

/-- A number of one byte is the byte. -/
theorem NumberAt.byte {a n : Nat} (h : m.NumberAt a 1 n) : ∃ b, m a = some b ∧ b.toNat = n := by
  obtain ⟨bs, hlength, hat, rfl⟩ := h
  obtain ⟨b, rfl⟩ := List.length_eq_one_iff.mp hlength
  refine ⟨b, hat 0 Nat.zero_lt_one, ?_⟩
  rw [ofLittleEndian, ofLittleEndian, Nat.mul_zero, Nat.add_zero]

end Memory

namespace Placement

variable {ι : Type} {P : Placement ι} {m : Memory} {a : Nat}

/-- The fields of the record at `a` are these numbers. -/
def Holds (P : Placement ι) (m : Memory) (a : Nat) (v : ι → Nat) : Prop :=
  ∀ i, m.NumberAt (a + P.offset i) (P.width i) (v i)

/-- The memory after one field of the record at `a` is written. -/
def store (P : Placement ι) (m : Memory) (a : Nat) (i : ι) (n : Nat) : Memory :=
  m.overwrite (a + P.offset i) (littleEndian (P.width i) n)

/-- The fields of a mapped record are some numbers. -/
theorem exists_holds (hm : m.Mapped a P.size) : ∃ v, P.Holds m a v := by
  have hfield : ∀ i, ∃ n, m.NumberAt (a + P.offset i) (P.width i) n := fun i => by
    have hinside := P.inside i
    exact Memory.Mapped.exists_numberAt fun x hx hx' => hm x (by omega) (by omega)
  choose v hv using hfield
  exact ⟨v, hv⟩

/-- **A store changes the number of its field and of no other.** -/
theorem Holds.store [DecidableEq ι] {v : ι → Nat} (h : P.Holds m a v) (i : ι) {n : Nat}
    (hn : n < 256 ^ P.width i) : P.Holds (P.store m a i n) a (Function.update v i n) := by
  intro j
  by_cases hj : j = i
  · subst hj
    rw [Function.update_self]
    exact Memory.numberAt_overwrite (h j).mapped hn
  · rw [Function.update_of_ne hj]
    refine (h j).overwrite_of_disjoint ?_
    have hbeside := P.beside j i hj
    rw [length_littleEndian]
    omega

end Placement

/-! ## 2. Token records -/

/-- The fields of a token record, with the payload as two words. -/
inductive TokenField where
  | tag
  | word
  | length
  | index
  | bitLength
  | bitOffset
  deriving DecidableEq

/-- Where the fields of a token record are stored. -/
def tokenPlacement : Placement TokenField where
  offset
    | .tag => libraryLayout.tag
    | .word => libraryLayout.payload
    | .length => libraryLayout.payload + FieldType.word.size
    | .index => libraryLayout.index
    | .bitLength => libraryLayout.bitLength
    | .bitOffset => libraryLayout.bitOffset
  width
    | .tag => FieldType.half.size
    | .bitOffset => FieldType.byte.size
    | .word | .length | .index | .bitLength => FieldType.word.size
  size := libraryLayout.size
  inside i := by cases i <;> decide
  beside i j := by cases i <;> cases j <;> decide

/-- What is in a token record: the first word of its payload is a number or a pointer, and the second
is the length of a span. -/
structure TokenContents where
  tag : Tag
  word : UInt64
  length : UInt64
  index : UInt64
  bitLength : UInt64
  bitOffset : Int8

/-- A value that is stored in one field of a token record. -/
inductive TokenStore where
  | tag (tag : Tag)
  | word (word : UInt64)
  | length (length : UInt64)
  | index (index : UInt64)
  | bitLength (bitLength : UInt64)
  | bitOffset (bitOffset : Int8)

namespace TokenStore

/-- The field of a store. -/
def field : TokenStore → TokenField
  | .tag _ => .tag
  | .word _ => .word
  | .length _ => .length
  | .index _ => .index
  | .bitLength _ => .bitLength
  | .bitOffset _ => .bitOffset

/-- The value of a store as an unsigned number. -/
def number : TokenStore → Nat
  | .tag t => t.toNat
  | .word n | .length n | .index n | .bitLength n => n.toNat
  | .bitOffset b => b.toUInt8.toNat

/-- The memory after a store to the token at `a`. -/
def write (s : TokenStore) (m : Memory) (a : Nat) : Memory :=
  tokenPlacement.store m a s.field s.number

theorem number_lt (s : TokenStore) : s.number < 256 ^ tokenPlacement.width s.field := by
  cases s with
  | tag t =>
    change t.toNat < 256 ^ 4
    exact t.toNat_lt
  | word n | length n | index n | bitLength n =>
    change n.toNat < 256 ^ 8
    exact n.toNat_lt
  | bitOffset b =>
    change b.toUInt8.toNat < 256 ^ 1
    exact b.toUInt8.toNat_lt

end TokenStore

namespace TokenContents

/-- The contents after a store: one value is another. -/
def after (c : TokenContents) : TokenStore → TokenContents
  | .tag tag => { c with tag }
  | .word word => { c with word }
  | .length length => { c with length }
  | .index index => { c with index }
  | .bitLength bitLength => { c with bitLength }
  | .bitOffset bitOffset => { c with bitOffset }

/-- The values of the fields as unsigned numbers. -/
def number (c : TokenContents) : TokenField → Nat
  | .tag => c.tag.toNat
  | .word => c.word.toNat
  | .length => c.length.toNat
  | .index => c.index.toNat
  | .bitLength => c.bitLength.toNat
  | .bitOffset => c.bitOffset.toUInt8.toNat

theorem number_after (c : TokenContents) (s : TokenStore) :
    (c.after s).number = Function.update c.number s.field s.number := by
  funext f
  cases s <;> cases f <;> rfl

end TokenContents

namespace Memory

variable {m : Memory} {a : Nat} {c : TokenContents}

/-- **All loads from the token record at `a` give these contents**, the first word of the payload as a
number of either kind and as a pointer. -/
structure TokenLoads (m : Memory) (a : Nat) (c : TokenContents) : Prop where
  tag : m.tokenTag a = some c.tag
  unsigned : m.payloadUnsigned a = some c.word
  signed : m.payloadSigned a = some c.word.toInt64
  pointer : m.payloadPointer a = some c.word.toNat
  length : m.payloadLength a = some c.length.toNat
  index : m.tokenIndex a = some c.index
  bitLength : m.tokenBitLength a = some c.bitLength
  bitOffset : m.tokenBitOffset a = some c.bitOffset

/-- The fields of a mapped token record are some contents. -/
theorem exists_tokenContents (hm : m.Mapped a libraryLayout.size) :
    ∃ c : TokenContents, tokenPlacement.Holds m a c.number := by
  obtain ⟨v, hv⟩ := Placement.exists_holds (P := tokenPlacement) hm
  refine ⟨⟨UInt32.ofNat (v .tag), UInt64.ofNat (v .word), UInt64.ofNat (v .length),
    UInt64.ofNat (v .index), UInt64.ofNat (v .bitLength), (UInt8.ofNat (v .bitOffset)).toInt8⟩, ?_⟩
  intro f
  have hf := hv f
  cases f with
  | tag => rwa [TokenContents.number, UInt32.toNat_ofNat_of_lt' hf.lt]
  | word | length | index | bitLength => rwa [TokenContents.number, UInt64.toNat_ofNat_of_lt' hf.lt]
  | bitOffset =>
    rwa [TokenContents.number, UInt8.toUInt8_toInt8, UInt8.toNat_ofNat_of_lt' hf.lt]

/-- **The loads give what the fields hold**; the payload is where the engine has it. -/
theorem tokenLoads_of_holds (h : tokenPlacement.Holds m a c.number) : m.TokenLoads a c := by
  -- the one place where the two declarations of a token have to agree
  have hpayload : engineLayout.payload = libraryLayout.payload := by decide
  have hword : m.NumberAt (payloadAddress a) 8 c.word.toNat := by
    rw [payloadAddress, hpayload]
    exact h .word
  have hlength : m.NumberAt (payloadAddress a + FieldType.word.size) 8 c.length.toNat := by
    rw [payloadAddress, hpayload, Nat.add_assoc]
    exact h .length
  obtain ⟨b, hb, hbit⟩ := (h .bitOffset).byte
  have hbit : b = c.bitOffset.toUInt8 := UInt8.toNat_inj.mp hbit
  have hunsigned : m.payloadUnsigned a = some c.word := loadUInt64_eq_some_iff.mpr hword
  refine ⟨loadUInt32_eq_some_iff.mpr (h .tag), hunsigned, ?_, loadPointer_eq_some_iff.mpr hword,
    loadPointer_eq_some_iff.mpr hlength, loadUInt64_eq_some_iff.mpr (h .index),
    loadUInt64_eq_some_iff.mpr (h .bitLength), ?_⟩
  · exact congrArg (Option.map UInt64.toInt64) hunsigned
  · have hload : m.tokenBitOffset a = some b.toInt8 := congrArg (Option.map UInt8.toInt8) hb
    rw [hload, hbit, Int8.toInt8_toUInt8]

/-- A store changes one value of the contents. -/
theorem holds_write (h : tokenPlacement.Holds m a c.number) (s : TokenStore) :
    tokenPlacement.Holds (s.write m a) a (c.after s).number := by
  rw [c.number_after]
  exact h.store s.field s.number_lt

/-- **Stores in a row** change one value after the other. -/
theorem holds_writes (h : tokenPlacement.Holds m a c.number) (stores : List TokenStore) :
    tokenPlacement.Holds (stores.foldl (fun m s => s.write m a) m) a
      (stores.foldl TokenContents.after c).number :=
  List.foldl_rel (r := fun m (c : TokenContents) => tokenPlacement.Holds m a c.number) h
    fun s _ _ _ h => holds_write h s

end Memory

/-! ## 3. Whole records -/

/-- A number is written as what is left of it in the width. -/
theorem littleEndian_mod (width n : Nat) :
    littleEndian width (n % 256 ^ width) = littleEndian width n := by
  induction width generalizing n with
  | zero => rfl
  | succ width ih =>
    have hfirst : (n % 256 ^ (width + 1)).toUInt8 = n.toUInt8 := by
      refine UInt8.toNat_inj.mp ?_
      change (UInt8.ofNat _).toNat = (UInt8.ofNat _).toNat
      rw [UInt8.toNat_ofNat', UInt8.toNat_ofNat', Nat.pow_succ]
      exact Nat.mod_mul_left_mod n (256 ^ width) 256
    have hrest : n % 256 ^ (width + 1) / 256 = n / 256 % 256 ^ width := by
      rw [Nat.pow_succ, Nat.mul_comm, Nat.mod_mul_right_div_self]
    rw [littleEndian, littleEndian, hfirst, hrest, ih]

/-- Runs of bytes are written one after the other. -/
theorem Memory.overwrite_append (m : Memory) (a : Nat) (bs cs : List UInt8) :
    m.overwrite a (bs ++ cs) = (m.overwrite a bs).overwrite (a + bs.length) cs := by
  funext x
  rcases Nat.lt_or_ge x a with hbefore | hfrom
  · rw [overwrite_of_outside (.inl hbefore), overwrite_of_outside (.inl (by omega)),
      overwrite_of_outside (.inl hbefore)]
  rcases Nat.lt_or_ge x (a + bs.length) with hfirst | hsecond
  · rw [overwrite_of_outside (.inl hfirst), overwrite, overwrite, if_pos hfrom, if_pos hfrom,
      List.getElem?_append_left (by omega)]
  · have hindex : x - a - bs.length = x - (a + bs.length) := by omega
    rw [overwrite, overwrite, if_pos hfrom, if_pos hsecond, overwrite_of_outside (.inr hsecond),
      List.getElem?_append_right (by omega), hindex]

/-- The stores that write a payload, word by word. -/
def Payload.stores : Payload → List TokenStore
  | .word n => [.word n]
  | .span pointer length => [.word (UInt64.ofNat pointer), .length (UInt64.ofNat length)]

/-- The stores that write a token record, in the order of its fields. -/
def TokenRecord.stores (r : TokenRecord) : List TokenStore :=
  .tag r.tag :: (r.payload.stores ++
    [.index r.index, .bitLength r.bitLength, .bitOffset r.bitOffset])

namespace Memory

/-- A payload is written by its stores. -/
theorem overwrite_payload (m : Memory) (a : Nat) (p : Payload) :
    m.overwrite (a + libraryLayout.payload) p.bytes =
      p.stores.foldl (fun m s => s.write m a) m := by
  cases p with
  | word n => rfl
  | span pointer length =>
    have hbytes : ∀ n, littleEndian 8 n = littleEndian 8 (UInt64.ofNat n).toNat := fun n => by
      rw [UInt64.toNat_ofNat']
      exact (littleEndian_mod 8 n).symm
    rw [Payload.bytes, overwrite_append, length_littleEndian, hbytes pointer, hbytes length,
      Nat.add_assoc]
    rfl

/-- **A token record is written by its stores.** -/
theorem overwriteFields_token (m : Memory) (a : Nat) (r : TokenRecord) :
    m.overwriteFields a r.fields = r.stores.foldl (fun m s => s.write m a) m := by
  have hbit : [r.bitOffset.toUInt8] = littleEndian 1 r.bitOffset.toUInt8.toNat :=
    congrArg (fun b => [b]) UInt8.ofNat_toNat.symm
  rw [TokenRecord.stores, List.foldl_cons, List.foldl_append, ← overwrite_payload,
    TokenRecord.fields, hbit]
  rfl

end Memory

/-! ## 4. What was stored -/

namespace Memory

variable {m : Memory} {a : Nat}

/-- **A payload of zeros is a null pointer**, and is read as no bytes and no slots, whatever stands
behind it. -/
theorem pointer_of_zero (h : m.payloadUnsigned a = some 0) :
    m.payloadPointer a = some 0 ∧ m.tokenBytes a = some [] ∧ m.tokenSlots a = some (0, 0) := by
  have hpointer : m.payloadPointer a = some 0 := congrArg (Option.map UInt64.toNat) h
  refine ⟨hpointer, ?_, ?_⟩
  · rw [tokenBytes, hpointer]
    rfl
  · rw [tokenSlots, hpointer]
    rfl

/-- A signed number is stored modulo `2 ^ 64`. -/
theorem toNat_toUInt64 (v : Int64) : (v.toUInt64.toNat : Int) = v.toInt % 2 ^ 64 := by
  have hlt := v.toUInt64.toNat_lt
  have hsigned := toInt_toInt64 v.toUInt64
  have hmod := Int.bmod_emod (x := (v.toUInt64.toNat : Int)) (m := 2 ^ 64)
  rw [Int64.toInt64_toUInt64] at hsigned
  rw [hsigned]
  omega

/-- **The loads give what was stored** in the token record at `a`: its header, the pointer and the
length of a span, the pointer to an array, and a number of either kind, which is read as the other
kind modulo `2 ^ 64`. -/
structure TokenStored (m : Memory) (a : Nat) (r : TokenRecord) : Prop where
  tag : m.tokenTag a = some r.tag
  index : m.tokenIndex a = some r.index
  bitLength : m.tokenBitLength a = some r.bitLength
  bitOffset : m.tokenBitOffset a = some r.bitOffset
  span : ∀ pointer length : UInt64, r.payload = .span pointer.toNat length.toNat →
    m.payloadPointer a = some pointer.toNat ∧ m.payloadLength a = some length.toNat
  array : ∀ array : UInt64, r.payload = .word array → m.payloadPointer a = some array.toNat
  signed : ∀ v : Int64, r.payload = .word v.toUInt64 →
    m.payloadSigned a = some v ∧
      ∃ u, m.payloadUnsigned a = some u ∧ (u.toNat : Int) = v.toInt % 2 ^ 64
  unsigned : ∀ u : UInt64, r.payload = .word u →
    m.payloadUnsigned a = some u ∧
      ∃ v, m.payloadSigned a = some v ∧ v.toInt = (u.toNat : Int).bmod (2 ^ 64)
  zero : r.payload = .word 0 →
    m.payloadPointer a = some 0 ∧ m.tokenBytes a = some [] ∧ m.tokenSlots a = some (0, 0)

/-- The contents after the stores of a record are those of the record; of the payload, the length is
what it was if none is stored. -/
theorem tokenStored_of_loads {r : TokenRecord} {c : TokenContents}
    (h : m.TokenLoads a (r.stores.foldl TokenContents.after c)) : m.TokenStored a r := by
  obtain ⟨tag, payload, index, bitLength, bitOffset⟩ := r
  cases payload with
  | word n =>
    obtain ⟨htag, hunsigned, hsigned, hpointer, -, hindex, hbitLength, hbitOffset⟩ := h
    refine ⟨htag, hindex, hbitLength, hbitOffset, fun _ _ => nofun, ?_, ?_, ?_, ?_⟩
    · rintro array ⟨⟩
      exact hpointer
    · rintro v ⟨⟩
      exact ⟨hsigned.trans (congrArg some v.toInt64_toUInt64), _, hunsigned, toNat_toUInt64 v⟩
    · rintro u ⟨⟩
      exact ⟨hunsigned, _, hsigned, toInt_toInt64 n⟩
    · rintro ⟨⟩
      exact pointer_of_zero hunsigned
  | span pointer length =>
    obtain ⟨htag, -, -, hpointer, hlength, hindex, hbitLength, hbitOffset⟩ := h
    refine ⟨htag, hindex, hbitLength, hbitOffset, ?_, fun _ => nofun, fun _ => nofun,
      fun _ => nofun, nofun⟩
    rintro p n heq
    obtain ⟨rfl, rfl⟩ := Payload.span.inj heq
    exact ⟨hpointer.trans (congrArg (some ∘ UInt64.toNat) UInt64.ofNat_toNat),
      hlength.trans (congrArg (some ∘ UInt64.toNat) UInt64.ofNat_toNat)⟩

end Memory

/-! ## 5. Counted arrays -/

/-- The fields of a counted array. -/
inductive ArrayField where
  | capacity
  | used
  | arena
  | elements
  deriving DecidableEq

/-- Where the fields of a counted array are stored. -/
def arrayPlacement : Placement ArrayField where
  offset
    | .capacity => arrayLayout.capacity
    | .used => arrayLayout.used
    | .arena => arrayLayout.arena
    | .elements => arrayLayout.elements
  width _ := FieldType.word.size
  size := arrayLayout.size
  inside i := by cases i <;> decide
  beside i j := by cases i <;> cases j <;> decide

namespace Memory

variable {m : Memory} {a : Nat} {c : ArrayField → UInt64}

/-- **All loads from the counted array at `a` give these values.** -/
structure ArrayLoads (m : Memory) (a : Nat) (c : ArrayField → UInt64) : Prop where
  capacity : m.arrayCapacity a = some (c .capacity).toNat
  used : m.arrayUsed a = some (c .used).toNat
  arena : m.arrayArena a = some (c .arena).toNat
  elements : m.arrayElements a = some (c .elements).toNat

theorem arrayLoads_of_holds (h : arrayPlacement.Holds m a fun f => (c f).toNat) :
    m.ArrayLoads a c :=
  ⟨loadPointer_eq_some_iff.mpr (h .capacity), loadPointer_eq_some_iff.mpr (h .used),
    loadPointer_eq_some_iff.mpr (h .arena), loadPointer_eq_some_iff.mpr (h .elements)⟩

/-- The fields of a mapped array are some values. -/
theorem exists_arrayContents (hm : m.Mapped a arrayLayout.size) :
    ∃ c : ArrayField → UInt64, arrayPlacement.Holds m a fun f => (c f).toNat := by
  obtain ⟨v, hv⟩ := Placement.exists_holds (P := arrayPlacement) hm
  refine ⟨fun f => UInt64.ofNat (v f), fun f => ?_⟩
  have hf := hv f
  rw [← UInt64.toNat_ofNat_of_lt' hf.lt] at hf
  exact hf

/-- **Stores in a row** change one value after the other. -/
theorem holds_arrayStores (h : arrayPlacement.Holds m a fun f => (c f).toNat)
    (stores : List (ArrayField × UInt64)) :
    arrayPlacement.Holds
      (stores.foldl (fun m s => arrayPlacement.store m a s.1 s.2.toNat) m) a
      fun f => (stores.foldl (fun c s => Function.update c s.1 s.2) c f).toNat := by
  refine List.foldl_rel
    (r := fun m (c : ArrayField → UInt64) => arrayPlacement.Holds m a fun f => (c f).toNat) h ?_
  intro s _ m c h
  have hupdate : (fun f => (Function.update c s.1 s.2 f).toNat) =
      Function.update (fun f => (c f).toNat) s.1 s.2.toNat :=
    Function.comp_update UInt64.toNat c s.1 s.2
  rw [hupdate]
  exact h.store s.1 s.2.toNat_lt

end Memory

/-! ## 6. Both records -/

namespace Memory

/-- The contents after an array is written: its arena is null. -/
def writtenArray (capacity used elements : UInt64) : ArrayField → UInt64
  | .capacity => capacity
  | .used => used
  | .arena => 0
  | .elements => elements

/-- **What is stored is loaded, and nothing else is changed.**  For every memory that is mapped where
the record is, whatever its bytes are:

* once a token record is written, each load of the decoder gives what was written;
* the loads from a token record give some contents, and after stores to its fields in a row they give
  the contents in which each store has changed one value, its own;
* a payload that is zero as an unsigned number is a null pointer, and has neither bytes nor slots;
* and the first two hold of counted arrays. -/
theorem loads_of_stores (m : Memory) (a : Nat) :
    (m.Mapped a libraryLayout.size →
      (∀ r : TokenRecord, (m.overwriteFields a r.fields).TokenStored a r) ∧
      ∃ c : TokenContents, m.TokenLoads a c ∧ ∀ stores : List TokenStore,
        (stores.foldl (fun m s => s.write m a) m).TokenLoads a
          (stores.foldl TokenContents.after c)) ∧
    (m.payloadUnsigned a = some 0 →
      m.payloadPointer a = some 0 ∧ m.tokenBytes a = some [] ∧ m.tokenSlots a = some (0, 0)) ∧
    (m.Mapped a arrayLayout.size →
      (∀ capacity used elements : UInt64,
        (m.overwriteFields a
          (CountedArray.fields ⟨capacity.toNat, used.toNat, elements.toNat⟩)).ArrayLoads a
            (writtenArray capacity used elements)) ∧
      ∃ c : ArrayField → UInt64, m.ArrayLoads a c ∧ ∀ stores : List (ArrayField × UInt64),
        (stores.foldl (fun m s => arrayPlacement.store m a s.1 s.2.toNat) m).ArrayLoads a
          (stores.foldl (fun c s => Function.update c s.1 s.2) c)) := by
  refine ⟨fun hm => ?_, pointer_of_zero, fun hm => ?_⟩
  · obtain ⟨c, hc⟩ := exists_tokenContents hm
    refine ⟨fun r => ?_, c, tokenLoads_of_holds hc, fun stores =>
      tokenLoads_of_holds (holds_writes hc stores)⟩
    rw [overwriteFields_token]
    exact tokenStored_of_loads (tokenLoads_of_holds (holds_writes hc r.stores))
  · obtain ⟨c, hc⟩ := exists_arrayContents hm
    refine ⟨fun capacity used elements => ?_, c, arrayLoads_of_holds hc, fun stores =>
      arrayLoads_of_holds (holds_arrayStores hc stores)⟩
    -- an array is written by one store to each of its fields
    obtain ⟨hcapacity, hused, harena, helements⟩ := arrayLoads_of_holds (holds_arrayStores hc
      [(.capacity, capacity), (.used, used), (.arena, 0), (.elements, elements)])
    exact ⟨hcapacity, hused, harena, helements⟩

/-- The memory that has the same byte everywhere. -/
def filled (b : UInt8) : Memory := fun _ => some b

theorem mapped_filled (b : UInt8) (a n : Nat) : (filled b).Mapped a n := fun _ _ _ => rfl

/-- The record of a token with a negative number at a negative bit offset. -/
def negativeRecord : TokenRecord where
  tag := .signed
  payload := .word (Int64.toUInt64 (-5))
  index := 3
  bitLength := 7
  bitOffset := -1

/-- Over other bytes that record gives its number and its bit offset, and an array the slots that it
uses; zeros are a null pointer; and the index is loaded as before when a bit length is stored. -/
theorem loads_of_stores_filled :
    (((filled 0xee).overwriteFields 16 negativeRecord.fields).payloadSigned 16 = some (-5) ∧
      ((filled 0xee).overwriteFields 16 negativeRecord.fields).tokenBitOffset 16 = some (-1)) ∧
    ((filled 0xee).overwriteFields 96 (CountedArray.fields ⟨5, 3, 136⟩)).arrayUsed 96 = some 3 ∧
    (filled 0).tokenSlots 16 = some (0, 0) ∧
    ∃ c : TokenContents, (filled 0xee).tokenIndex 16 = some c.index ∧
      (TokenStore.write (.bitLength 1) (filled 0xee) 16).tokenIndex 16 = some c.index := by
  obtain ⟨htoken, -, -⟩ := loads_of_stores (filled 0xee) 16
  obtain ⟨hrecord, c, hloads, hstores⟩ := htoken (mapped_filled _ _ _)
  have hstored := hrecord negativeRecord
  obtain ⟨-, hzero, -⟩ := loads_of_stores (filled 0) 16
  obtain ⟨-, -, harray⟩ := loads_of_stores (filled 0xee) 96
  obtain ⟨hwritten, -⟩ := harray (mapped_filled _ _ _)
  exact ⟨⟨(hstored.signed (-5) rfl).1, hstored.bitOffset⟩, (hwritten 5 3 136).used, (hzero rfl).2.2,
    c, hloads.index, (hstores [.bitLength 1]).index⟩

end Memory

end TokenImage
