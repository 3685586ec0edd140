/-
  MerkleAirdrop.Layout.Fields
  ───────────────────────────
  **TAKING DECODED FIELDS ONE BY ONE, EACH AS A TYPE.**

  A record is built from the decoded values of its layout by asking for them
  in field order: a number here, an address there.  Asking for the wrong type
  fails and names the field with its declared kind, and the field is used up
  all the same.  Asking past the last field fails and moves nothing.
-/
import MerkleAirdrop.Layout.Decode

namespace MerkleAirdrop

/-! ## §1. Decoded fields. -/

/-- The fields of a layout and the values that are still to be taken. -/
structure DecodedFields where
  /-- All fields of the layout. -/
  fields : List Field
  /-- The values not yet taken. -/
  values : List Value
  /-- How many have been taken. -/
  index : Nat

/-- One value per field, read at a cursor, none taken yet. -/
def Layout.readFields (layout : Layout) : Reader DecodedFields := do
  let values ← layout.read
  return ⟨layout.fields, values, 0⟩

/-- One value per field, read from the start of a buffer, none taken yet. -/
def Layout.decodeFields (layout : Layout) (data : List UInt8) : Except Error DecodedFields :=
  layout.readFields.run (.start data)

/-! ## §2. Taking. -/

/-- A run of takes.  What a failed take used up stays used up. -/
abbrev Take := EStateM Error DecodedFields

namespace Take

/-- The next field and its value. -/
def next : Take (Field × Value) := do
  let state ← get
  match state.fields[state.index]? with
  | none => throw (.fieldCount state.fields.length (state.index + 1))
  | some field =>
    match state.values with
    | [] => throw (.fieldCount state.fields.length state.index)
    | value :: rest =>
      set { state with values := rest, index := state.index + 1 }
      return (field, value)

/-- The next value as a type, by a view that says what a value holds. -/
def as {α : Type} (view : Value → Option α) : Take α := do
  let (field, value) ← next
  match view value with
  | some a => return a
  | none => throw (.valueMismatch field.name field.kind)

/-- A byte. -/
def u8 : Take UInt8 := as Value.asU8?

/-- An unsigned 64-bit number. -/
def u64 : Take UInt64 := as Value.asU64?

/-- A signed 64-bit number. -/
def i64 : Take Int64 := as Value.asI64?

/-- A truth value. -/
def bool : Take Bool := as Value.asBool?

/-- An address. -/
def pubkey : Take Address := as Value.asPubkey?

/-- Exactly `n` bytes. -/
def block (n : Nat) : Take (Block n) := as (Value.asBlock? n)

/-- A list of thirty-two-byte strings. -/
def hashes : Take (List Hash) := as Value.asHashes?

/-- What a run of takes makes of decoded fields. -/
def build {α : Type} (take : Take α) (fields : DecodedFields) : Except Error α :=
  match take.run fields with
  | .ok a _ => .ok a
  | .error e _ => .error e

end Take

end MerkleAirdrop
