/-
  MerkleAirdrop.Schema.Basic
  ──────────────────────────
  **TYPES THAT ARE LAID OUT IN FIELDS.**

  A `Schema` says which fields a type has, takes a value apart into one field
  value each and puts it together from decoded fields.  A `Record` is a
  schema with a name and a tag of eight bytes: account records and the
  arguments of instructions.

  A record is written as its tag and its fields.  A buffer that is read as a
  record has to begin with its tag; what follows is read by a cursor that
  stands behind the tag, so that places are counted in the whole buffer.
-/
import MerkleAirdrop.Layout.Encode
import MerkleAirdrop.Layout.Fields

namespace MerkleAirdrop

/-! ## §1. Schemas and records. -/

/-- A type that is laid out in fields. -/
class Schema (α : Type) where
  /-- The fields in order. -/
  layout : Layout
  /-- One value for each field. -/
  toValues : α → List Value
  /-- The fields taken in order. -/
  take : Take α

/-- A type with a name and a tag of its own. -/
class Record (α : Type) extends Schema α where
  /-- The name that messages use. -/
  name : String
  /-- The tag in front of the fields. -/
  discriminator : Discriminator

/-! ## §2. Tags. -/

/-- The bytes of a tag. -/
def tagWidth : Nat := 8

/-- The tag of a buffer and the cursor behind it. -/
def splitTag (data : List UInt8) : Except Error (Discriminator × Cursor) :=
  match Block.take? tagWidth data with
  | some found => .ok (found, ⟨tagWidth, data.drop tagWidth⟩)
  | none => .error (.malformedInput tagWidth data.length)

namespace Record

variable {α : Type} [Record α]

/-! ## §3. Records as bytes. -/

/-- The fields behind the tag, as a value. -/
def decodeFields (c : Cursor) : Except Error α := do
  let fields ← (Schema.layout α).readFields.run c
  Schema.take.build fields

/-- The record at the start of a buffer. -/
def decode (data : List UInt8) : Except Error α := do
  let (found, c) ← splitTag data
  if found = discriminator α then
    decodeFields c
  else
    throw (.wrongDiscriminator (name α) (discriminator α) found)

/-- The tag and the fields of a record. -/
def encode (record : α) : Except Error (List UInt8) :=
  ((Schema.layout α).encodeInto (Schema.toValues record) (discriminator α).toList).result

/-- The bytes of the tag and of the declared fields. -/
def size (α : Type) [Record α] : Except Overflow Nat :=
  (Schema.layout α).width.map (tagWidth + ·)

end Record

end MerkleAirdrop
