/-
  MerkleAirdrop.Layout.Kind
  ─────────────────────────
  **WHAT A FIELD MAY HOLD, AND HOW MANY BYTES IT DECLARES.**

  A `Layout` is an ordered list of named fields, each of a `Kind`.  The width
  of a kind is the number of bytes it always takes; a vector declares only
  the four bytes of its element count.  Widths live below `2 ^ 64`: a product
  or a sum that would reach that limit is an `Overflow`, reported at the
  first operation that meets it.  An array of length zero does not excuse an
  element whose own width overflows, since the element comes first.
-/
namespace MerkleAirdrop

/-! ## §1. Kinds, fields and layouts. -/

/-- What one field holds. -/
inductive Kind where
  /-- One byte. -/
  | u8
  /-- Eight bytes, an unsigned number. -/
  | u64
  /-- Eight bytes, a signed number. -/
  | i64
  /-- One byte, true unless it is zero. -/
  | bool
  /-- So many bytes as they are. -/
  | bytes (length : UInt64)
  /-- An address, thirty-two bytes. -/
  | pubkey
  /-- So many elements of one kind. -/
  | array (element : Kind) (length : UInt64)
  /-- A four-byte count, then so many elements of one kind. -/
  | vec (element : Kind)
  deriving DecidableEq, Repr

/-- A named field. -/
structure Field where
  name : String
  kind : Kind
  deriving DecidableEq, Repr

/-- Fields in the order in which they are written. -/
structure Layout where
  fields : List Field
  deriving DecidableEq, Repr

/-! ## §2. Widths. -/

/-- The arithmetic that left the 64-bit range. -/
inductive Overflow where
  /-- An element width times a length. -/
  | multiply
  /-- A sum of field widths. -/
  | add
  /-- A buffer of `2 ^ 63` bytes or more was asked for. -/
  | capacity
  deriving DecidableEq, Repr

/-- The overflow in words. -/
def Overflow.message : Overflow → String
  | .multiply => "attempt to multiply with overflow"
  | .add => "attempt to add with overflow"
  | .capacity => "capacity overflow"

/-- Widths and lengths are below this, `2 ^ 64`. -/
def sizeLimit : Nat := UInt64.size

/-- A number if it is below the limit, else the overflow that made it. -/
def bounded (overflow : Overflow) (n : Nat) : Except Overflow Nat :=
  if n < sizeLimit then .ok n else .error overflow

/-- The bytes of a vector's element count. -/
def countWidth : Nat := 4

/-- The bytes that a kind declares. -/
def Kind.width : Kind → Except Overflow Nat
  | .u8 | .bool => .ok 1
  | .u64 | .i64 => .ok 8
  | .bytes length => .ok length.toNat
  | .pubkey => .ok 32
  | .array element length => do
    let each ← element.width
    bounded .multiply (each * length.toNat)
  | .vec _ => .ok countWidth

/-- Whether every value of a kind takes the same number of bytes. -/
def Kind.isFixed : Kind → Bool
  | .array element _ => element.isFixed
  | .vec _ => false
  | _ => true

namespace Layout

/-- The sum of the fields' widths, on top of `total`, taken field by field. -/
def widthFrom (total : Nat) : List Field → Except Overflow Nat
  | [] => .ok total
  | field :: rest => do
    let width ← field.kind.width
    let total ← bounded .add (total + width)
    widthFrom total rest

/-- The bytes that a layout declares: with vectors in it, the fewest bytes
that can hold its values. -/
def width (layout : Layout) : Except Overflow Nat := widthFrom 0 layout.fields

/-- Whether all fields are fixed. -/
def isFixed (layout : Layout) : Bool := layout.fields.all (·.kind.isFixed)

/-- The width of the layout as the size of a buffer, which must stay below
half the limit. -/
def bufferSize (layout : Layout) : Except Overflow Nat := do
  let width ← layout.width
  if width < sizeLimit / 2 then .ok width else .error .capacity

end Layout

/-! ## §3. Kinds in words. -/

/-- A kind as messages spell it. -/
def Kind.text : Kind → String
  | .u8 => "U8"
  | .u64 => "U64"
  | .i64 => "I64"
  | .bool => "Bool"
  | .bytes length => s!"Bytes({length.toNat})"
  | .pubkey => "Pubkey"
  | .array element length => s!"Array({element.text}, {length.toNat})"
  | .vec element => s!"Vec({element.text})"

end MerkleAirdrop
