/-
  MerkleAirdrop.Schema.Json
  ─────────────────────────
  **TYPES WITH FIELDS AS JSON.**

  A value is written as an object with one member per field, in field order,
  the field's name in camel case; a type without fields is `null`.  64-bit
  numbers and addresses are texts, bytes are numbers, byte strings are arrays
  of numbers.

  Reading takes the members in any order and lets members of other names
  pass, or an array of exactly the members' values in field order.  A known
  member that is missing or repeated is refused, and so is a value of another
  shape.
-/
import MerkleAirdrop.Json.Parse
import MerkleAirdrop.Schema.Basic

namespace MerkleAirdrop

/-! ## §1. Field values as JSON. -/

mutual

/-- A field value as JSON. -/
def Value.toJson : Value → Json
  | .u8 v => .ofNat v.toNat
  | .u64 v => .text (Numeral.writeU64 v)
  | .i64 v => .text (Numeral.writeI64 v)
  | .bool v => .bool v
  | .bytes v => .arr (v.map fun b => .ofNat b.toNat)
  | .pubkey v => .text (Address.text v)
  | .list items => .arr (Value.listToJson items)

/-- Field values as JSON, each by itself. -/
def Value.listToJson : List Value → List Json
  | [] => []
  | item :: items => item.toJson :: Value.listToJson items

end

/-- One byte, written as a number from 0 to 255. -/
def Json.asByte? (j : Json) : Option UInt8 := do
  let n ← j.asNat?
  if n < 256 then some (UInt8.ofNat n) else none

/-- The value of a kind that a JSON value writes. -/
def Kind.ofJson? : Kind → Json → Option Value
  | .u8, j => .u8 <$> j.asByte?
  | .u64, j => do return .u64 (← (Numeral.readU64 (← j.asText?)).toOption)
  | .i64, j => do return .i64 (← (Numeral.readI64 (← j.asText?)).toOption)
  | .bool, j => .bool <$> j.asBool?
  | .bytes length, j => do
    let items ← j.asArray?
    if items.length = length.toNat then .bytes <$> items.mapM Json.asByte? else none
  | .pubkey, j => do return .pubkey (← Address.parse? (← j.asText?))
  | .array element length, j => do
    let items ← j.asArray?
    if items.length = length.toNat then .list <$> items.mapM element.ofJson? else none
  | .vec element, j => do
    let items ← j.asArray?
    .list <$> items.mapM element.ofJson?

/-! ## §2. Members. -/

/-- Camel case of a name whose words are joined by underscores. -/
def camelCase (name : String) : String := String.ofList (go name.toList)
where
  go : List Char → List Char
    | '_' :: c :: rest => c.toUpper :: go rest
    | c :: rest => c :: go rest
    | [] => []

/-- Snake case of a name whose words begin with capitals. -/
def snakeCase (name : String) : String :=
  match name.toList with
  | [] => ""
  | first :: rest => String.ofList (first.toLower :: rest.flatMap go)
where
  go (c : Char) : List Char := if c.isUpper then ['_', c.toLower] else [c.toLower]

/-- The name of a field's member. -/
def Field.memberName (field : Field) : String := camelCase field.name

/-- The value of the only member of a name. -/
def onlyMember? (name : String) (members : List (String × Json)) : Option Json :=
  match members.filter (·.1 == name) with
  | [(_, value)] => some value
  | _ => none

/-- The members of an object, if all their names are characters. -/
def namedMembers? (members : List (Option String × Json)) : Option (List (String × Json)) :=
  members.mapM fun (name?, value) => name?.map (·, value)

/-- The values of a layout's fields in an object or an array. -/
def Layout.valuesOfJson? (layout : Layout) : Json → Option (List Value)
  | .obj members => do
    let members ← namedMembers? members
    layout.fields.mapM fun field => do field.kind.ofJson? (← onlyMember? field.memberName members)
  | .arr items =>
    if items.length = layout.fields.length then
      (layout.fields.zip items).mapM fun (field, item) => field.kind.ofJson? item
    else
      none
  | _ => none

/-! ## §3. Types with fields. -/

namespace Schema

variable {α : Type} [Schema α]

/-- A value as JSON. -/
def toJson (a : α) : Json :=
  if (layout α).fields.isEmpty then
    .null
  else
    .object (((layout α).fields.zip (toValues a)).map fun (field, value) =>
      (field.memberName, value.toJson))

/-- The value of a type that a JSON value writes. -/
def ofJson? (j : Json) : Option α := do
  let values ←
    if (layout α).fields.isEmpty then
      match j with
      | .null => some []
      | _ => none
    else
      (layout α).valuesOfJson? j
  (take.build ⟨(layout α).fields, values, 0⟩).toOption

/-- The value of a type that a JSON text writes. -/
def parse? (text : String) : Option α := do ofJson? (← Json.parse? text)

end Schema

end MerkleAirdrop
