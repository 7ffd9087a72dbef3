/-
# The JSON text of a token loses nothing

A reader of the shape that tokens have as JSON: an object with exactly the fields of a token, of
which the value is an object with its type and, unless it carries nothing, with what it carries.
Fields stand in any order; a number must be one of its width.  Applied to the JSON text of a token
the reader gives back that token (`ofJsonText?_jsonText`), so no two tokens have the same text.
-/
import TokenImage.Proofs.Json.Reading
import TokenImage.Proofs.Token.Display
import TokenImage.Token.Json

namespace TokenImage.Token

open TokenImage.Text

/-! ## 1. The reader -/

/-- The value of the only member with this key. -/
def member? (key : String) (members : List (String × Json)) : Option Json :=
  match members.filter fun m => m.1 = key with
  | [m] => some m.2
  | _ => none

/-- The values of the members with these keys, if there are no other members. -/
def fields? (keys : List String) (members : List (String × Json)) : Option (List Json) :=
  if members.length = keys.length then keys.mapM (member? · members) else none

/-- The byte that this number is. -/
def byte? : Json → Option UInt8
  | .number n => uint8? n
  | _ => none

/-- What a value of this type carries, where `item?` reads the items of a sequence. -/
def carried? (item? : Json → Option Token) (type : String) : Json → Option (Value Token)
  | .array items =>
    if type = "bytes" then (items.mapM byte?).map .bytes
    else if type = "sequence" then (items.mapM item?).map .sequence
    else none
  | .number n =>
    if type = "signed_int" then (int64? n).map .signed
    else if type = "unsigned_int" then (uint64? n).map .unsigned
    else none
  | _ => none

/-- A value by its type. -/
def ofValue? (item? : Json → Option Token) : Json → Option (Value Token)
  | .object members =>
    match fields? ["type"] members, fields? ["type", "value"] members with
    | some [.text type], _ => if type = "none" then some .none else none
    | _, some [.text type, v] => carried? item? type v
    | _, _ => none
  | _ => none

/-- A token with at most so many levels. -/
def ofRecord? : (fuel : Nat) → Json → Option Token
  | fuel + 1, .object members =>
    match fields? ["byte_offset", "bit_offset", "value"] members with
    | some [.number b, .number o, v] => do
      let byteOffset ← int64? b
      let bitOffset ← int8? o
      let value ← ofValue? (ofRecord? fuel) v
      some ⟨byteOffset, bitOffset, value⟩
    | _ => none
  | _, _ => none

/-- **The token with this JSON text**, if there is one. -/
def ofJsonText? (text : String) : Option Token := do
  let v ← Json.read? text
  ofRecord? v.size v

/-! ## 2. Parts -/

/-- The fields of a record with distinct keys are found. -/
theorem fields?_token (b o v : Json) :
    fields? ["byte_offset", "bit_offset", "value"]
      [("byte_offset", b), ("bit_offset", o), ("value", v)] = some [b, o, v] := rfl

theorem ofValue?_none (item? : Json → Option Token) :
    ofValue? item? (.object [("type", .text "none")]) = some .none := rfl

theorem ofValue?_jsonValue (item? : Json → Option Token) (type : String) (v : Json) :
    ofValue? item? (jsonValue type v) = carried? item? type v := rfl

/-- What is left of a token after its value is its position. -/
theorem ofRecord?_jsonRecord {fuel : Nat} (b : Int64) (o : Int8) {v : Json} {value : Value Token}
    (h : ofValue? (ofRecord? fuel) v = some value) :
    ofRecord? (fuel + 1) (jsonRecord b o v) = some ⟨b, o, value⟩ := by
  simp only [jsonRecord, ofRecord?, fields?_token, int64?_toInt, int8?_toInt, h,
    Option.bind_eq_bind, Option.bind_some]

theorem mapM_byte? (span : List UInt8) :
    (span.map fun x => Json.number x.toNat).mapM byte? = some span := by
  induction span with
  | nil => rfl
  | cons x span ih =>
    simp only [List.map_cons, List.mapM_cons, ih, byte?, uint8?_toNat, Option.bind_eq_bind,
      Option.bind_some, Option.pure_def]

/-! ## 3. Trees -/

mutual

/-- **A token is read back** from its JSON value. -/
theorem ofRecord?_toJson : ∀ (t : Token) {fuel : Nat}, t.count ≤ fuel →
    ofRecord? fuel t.toJson = some t
  | ⟨b, o, .none⟩, fuel, hfuel => by
    obtain ⟨fuel, rfl⟩ : ∃ k, fuel = k + 1 := ⟨fuel - 1, by rw [count] at hfuel; omega⟩
    exact ofRecord?_jsonRecord b o (ofValue?_none _)
  | ⟨b, o, .bytes span⟩, fuel, hfuel => by
    obtain ⟨fuel, rfl⟩ : ∃ k, fuel = k + 1 := ⟨fuel - 1, by rw [count] at hfuel; omega⟩
    refine ofRecord?_jsonRecord b o ?_
    rw [ofValue?_jsonValue, carried?, if_pos rfl, mapM_byte?, Option.map_some]
  | ⟨b, o, .signed number⟩, fuel, hfuel => by
    obtain ⟨fuel, rfl⟩ : ∃ k, fuel = k + 1 := ⟨fuel - 1, by rw [count] at hfuel; omega⟩
    refine ofRecord?_jsonRecord b o ?_
    rw [ofValue?_jsonValue, carried?, if_pos rfl, int64?_toInt, Option.map_some]
  | ⟨b, o, .unsigned number⟩, fuel, hfuel => by
    obtain ⟨fuel, rfl⟩ : ∃ k, fuel = k + 1 := ⟨fuel - 1, by rw [count] at hfuel; omega⟩
    have hne : ¬ "unsigned_int" = "signed_int" := by decide
    refine ofRecord?_jsonRecord b o ?_
    rw [ofValue?_jsonValue, carried?, if_neg hne, if_pos rfl, uint64?_toNat, Option.map_some]
  | ⟨b, o, .sequence items⟩, fuel, hfuel => by
    obtain ⟨fuel, rfl⟩ : ∃ k, fuel = k + 1 := ⟨fuel - 1, by rw [count] at hfuel; omega⟩
    have htotal : totalCount items ≤ fuel := by
      rw [count] at hfuel
      omega
    have hne : ¬ "sequence" = "bytes" := by decide
    refine ofRecord?_jsonRecord b o ?_
    rw [ofValue?_jsonValue, carried?, if_neg hne, if_pos rfl, mapM_itemsToJson items htotal,
      Option.map_some]

/-- The items of a sequence are read back, each of them. -/
theorem mapM_itemsToJson : ∀ (ts : List Token) {fuel : Nat}, totalCount ts ≤ fuel →
    (itemsToJson ts).mapM (ofRecord? fuel) = some ts
  | [], _, _ => rfl
  | t :: ts, fuel, hfuel => by
    rw [totalCount] at hfuel
    have htoken : ofRecord? fuel t.toJson = some t := ofRecord?_toJson t (by omega)
    have hitems : (itemsToJson ts).mapM (ofRecord? fuel) = some ts :=
      mapM_itemsToJson ts (by omega)
    simp only [itemsToJson, List.mapM_cons, htoken, hitems, Option.bind_eq_bind, Option.bind_some,
      Option.pure_def]

end

mutual

/-- A tree has no more tokens than its JSON value has values in it. -/
theorem count_le_size : ∀ t : Token, t.count ≤ t.toJson.size
  | ⟨_, _, .none⟩ => Json.one_le_size _
  | ⟨_, _, .bytes _⟩ => Json.one_le_size _
  | ⟨_, _, .signed _⟩ => Json.one_le_size _
  | ⟨_, _, .unsigned _⟩ => Json.one_le_size _
  | ⟨_, _, .sequence items⟩ => by
    have hitems := totalCount_le_totalSize items
    simp only [count, toJson, jsonRecord, jsonValue, Json.size, Json.membersSize]
    omega

theorem totalCount_le_totalSize : ∀ ts : List Token,
    totalCount ts ≤ Json.totalSize (itemsToJson ts)
  | [] => Nat.le_refl 0
  | t :: ts => Nat.add_le_add (count_le_size t) (totalCount_le_totalSize ts)

end

/-! ## 4. Texts -/

/-- Where the writer fails there is no text but an internal error, which came from that failure. -/
theorem serializeWith_of_error {write : Json → Except (Cause Error) String} {t : Token}
    {cause : Cause Error} (h : write t.toJson = .error cause) :
    t.serializeWith write = .error
      { kind := .internal, message := some "failed to serialize token", depth := none,
        source := some cause } := by
  rw [serializeWith, h]
  rfl

/-- The compact writer gives the JSON text. -/
theorem serialize_eq_ok (t : Token) : t.serialize = .ok t.jsonText := rfl

/-- **The reader undoes the writer.** -/
theorem ofJsonText?_jsonText (t : Token) : ofJsonText? t.jsonText = some t := by
  have hrecord := ofRecord?_toJson t t.count_le_size
  rw [ofJsonText?, jsonText, Json.read?_compact]
  exact hrecord

theorem jsonText_inj {a b : Token} : a.jsonText = b.jsonText ↔ a = b :=
  eq_iff_of_undone ofJsonText?_jsonText a b

theorem jsonText_ne_of_value {a b : Token} (h : a.value ≠ b.value) : a.jsonText ≠ b.jsonText :=
  fun htext => h (congrArg value (jsonText_inj.mp htext))

/-- **JSON loses nothing.**  Every token can be written out, as its JSON text; it is one value of the
whole grammar of JSON with nothing after it, and the reader of the documented shape gives back exactly
that token.
So different tokens have different texts, wherever they start: a signed and an unsigned number, an
empty byte string and an empty sequence, nothing and anything else are never confused. -/
theorem jsonText_lossless :
    (∀ t : Token, t.serialize = .ok t.jsonText ∧ Json.IsJson t.jsonText ∧
      ofJsonText? t.jsonText = some t) ∧
    (∀ a b : Token, a.jsonText = b.jsonText ↔ a = b) ∧
    (∀ (b b' : Int64) (o o' : Int8),
      (∀ m n, jsonText ⟨b, o, .signed m⟩ ≠ jsonText ⟨b', o', .unsigned n⟩) ∧
      jsonText ⟨b, o, .bytes []⟩ ≠ jsonText ⟨b', o', .sequence []⟩ ∧
      (∀ v, v ≠ .none → jsonText ⟨b, o, .none⟩ ≠ jsonText ⟨b', o', v⟩)) := by
  refine ⟨fun t => ⟨t.serialize_eq_ok, Json.isJson_compact t.toJson, ofJsonText?_jsonText t⟩,
    fun a b => jsonText_inj, fun b b' o o' => ⟨fun m n => ?_, ?_, fun v hv => ?_⟩⟩
  · exact jsonText_ne_of_value nofun
  · exact jsonText_ne_of_value nofun
  · exact jsonText_ne_of_value hv.symm

end TokenImage.Token
