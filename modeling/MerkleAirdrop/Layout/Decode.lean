/-
  MerkleAirdrop.Layout.Decode
  ───────────────────────────
  **FROM BYTES TO VALUES.**

  A cursor moves forward over a buffer.  Each read takes what its kind
  declares or fails with the place, counted from the start of the buffer,
  up to which bytes would have been needed.  A vector's count is weighed
  against what is left before any element is read: each element is taken to
  need at least its declared width, and at least one byte.

  Bytes behind the last field are not looked at.
-/
import MerkleAirdrop.Error
import MerkleAirdrop.Layout.Value

namespace MerkleAirdrop

/-! ## §1. The cursor. -/

/-- A place in a buffer. -/
structure Cursor where
  /-- How many bytes lie behind. -/
  offset : Nat
  /-- The bytes that lie ahead. -/
  rest : List UInt8

namespace Cursor

/-- The start of a buffer. -/
def start (data : List UInt8) : Cursor := ⟨0, data⟩

/-- The size of the whole buffer. -/
def size (c : Cursor) : Nat := c.offset + c.rest.length

/-- The failure to find `n` bytes ahead.  The place is reported in 64 bits
and stays at the largest such number beyond them. -/
def short (c : Cursor) (n : Nat) : Error :=
  .malformedInput (min (c.offset + n) (sizeLimit - 1)) c.size

end Cursor

/-! ## §2. Readers. -/

/-- A read: from a cursor to a value and the cursor behind it. -/
abbrev Reader := StateT Cursor (Except Error)

namespace Reader

/-- The next byte. -/
def byte : Reader UInt8 := fun c =>
  match c.rest with
  | b :: rest => .ok (b, ⟨c.offset + 1, rest⟩)
  | [] => .error (c.short 1)

/-- The next `n` bytes. -/
def block (n : Nat) : Reader (Block n) := fun c =>
  match Block.take? n c.rest with
  | some b => .ok (b, ⟨c.offset + n, c.rest.drop n⟩)
  | none => .error (c.short n)

/-- Fails unless there are `n` more bytes; takes none of them. -/
def ensure (n : Nat) : Reader Unit := fun c =>
  if c.rest.length < n then .error (c.short n) else .ok ((), c)

/-- The value of a computation that does not read. -/
def lift {α : Type} (x : Except Error α) : Reader α := fun c => x.map (·, c)

/-- The same read `n` times. -/
def repeated {α : Type} (read : Reader α) : Nat → Reader (List α)
  | 0 => pure []
  | n + 1 => do
    let x ← read
    let xs ← repeated read n
    return x :: xs

/-- The value read at a cursor. -/
def run {α : Type} (read : Reader α) (c : Cursor) : Except Error α := (read c).map (·.1)

end Reader

/-! ## §3. One value. -/

/-- Reads a value of a kind. -/
def Kind.read : Kind → Reader Value
  | .u8 => do return .u8 (← Reader.byte)
  | .u64 => do return .u64 (u64OfBytes (← Reader.block 8).toList)
  | .i64 => do return .i64 (i64OfBytes (← Reader.block 8).toList)
  | .bool => do return .bool ((← Reader.byte) != 0)
  | .bytes length => do return .bytes (← Reader.block length.toNat).toList
  | .pubkey => do return .pubkey (← Reader.block 32)
  | .array element length => do
    return .list (← Reader.repeated element.read length.toNat)
  | .vec element => do
    let count := Bytes.toNat (← Reader.block countWidth).toList
    -- the count is read before the width is worked out: a buffer too short
    -- for the count is the first thing to be reported
    let width ← Reader.lift (element.width.mapError Error.overflow)
    -- elements of no width still cost a byte each here, so that a count
    -- cannot ask for more elements than the buffer has bytes
    Reader.ensure (count * max width 1)
    return .list (← Reader.repeated element.read count)

/-! ## §4. All fields. -/

namespace Layout

/-- Reads one value per field. -/
def read (layout : Layout) : Reader (List Value) := layout.fields.mapM (·.kind.read)

/-- One value per field, read from the start of the buffer. -/
def decode (layout : Layout) (data : List UInt8) : Except Error (List Value) :=
  layout.read.run (.start data)

end Layout

end MerkleAirdrop
