/-
  MerkleAirdrop.Layout.Encode
  ───────────────────────────
  **FROM VALUES TO BYTES.**

  Fields are written one after the other without padding: numbers lowest
  byte first, a boolean as one byte, addresses and byte strings as they are,
  a vector as its element count in four bytes and then its elements.

  A write stops at the first value that is not of the kind met there.  What
  was written before stays written, so the outcome of a write is a `Written`:
  the bytes that went out and the cause that stopped it, if any.  Writes in a
  row do not depend on how they are grouped (`Written.andThen_assoc`).
-/
import MerkleAirdrop.Error
import MerkleAirdrop.Layout.Value

namespace MerkleAirdrop

/-! ## §1. Writes. -/

/-- The outcome of a write. -/
structure Written (ε : Type) where
  /-- What went out. -/
  bytes : List UInt8
  /-- What stopped the write, if it did not complete. -/
  stop : Option ε

namespace Written

variable {ε δ : Type}

/-- A write that completes. -/
def done (bytes : List UInt8) : Written ε := ⟨bytes, none⟩

/-- A write that stops before its first byte. -/
def stopped (cause : ε) : Written ε := ⟨[], some cause⟩

/-- One write, and if it completes the next. -/
def andThen (first next : Written ε) : Written ε :=
  match first.stop with
  | none => ⟨first.bytes ++ next.bytes, next.stop⟩
  | some _ => first

/-- All writes in order, up to the first that stops. -/
def sequence (writes : List (Written ε)) : Written ε := writes.foldr andThen (done [])

/-- The same write with its cause put in other terms. -/
def mapStop (f : ε → δ) (w : Written ε) : Written δ := ⟨w.bytes, w.stop.map f⟩

/-- The bytes of a write that completed, or what stopped it. -/
def result (w : Written ε) : Except ε (List UInt8) :=
  match w.stop with
  | none => .ok w.bytes
  | some cause => .error cause

@[simp] theorem result_done (bytes : List UInt8) :
    (done bytes : Written ε).result = .ok bytes := rfl

@[simp] theorem andThen_done_done (first next : List UInt8) :
    (done first : Written ε).andThen (done next) = done (first ++ next) := rfl

@[simp] theorem stopped_andThen (cause : ε) (next : Written ε) :
    (stopped cause).andThen next = stopped cause := rfl

@[simp] theorem done_nil_andThen (next : Written ε) : (done []).andThen next = next := rfl

theorem andThen_assoc (a b c : Written ε) :
    (a.andThen b).andThen c = a.andThen (b.andThen c) := by
  obtain ⟨bytesA, stopA⟩ := a
  obtain ⟨bytesB, stopB⟩ := b
  cases stopA <;> cases stopB <;> simp [andThen]

end Written

/-! ## §2. One value. -/

/-- The element counts that a vector can record are below this, `2 ^ 32`. -/
def countLimit : Nat := UInt32.size

/-- Writes a value of a kind.  The cause of a stop is the kind at which the
value went wrong, which may lie inside an array or a vector. -/
def Kind.write : Kind → Value → Written Kind
  | .u8, .u8 v => .done [v]
  | .u64, .u64 v => .done (bytesOfU64 v)
  | .i64, .i64 v => .done (bytesOfI64 v)
  | .bool, .bool v => .done [if v then 1 else 0]
  | .bytes length, .bytes v =>
    if v.length = length.toNat then .done v else .stopped (.bytes length)
  | .pubkey, .pubkey v => .done v.toList
  | .array element length, .list items =>
    if items.length = length.toNat then
      .sequence (items.map element.write)
    else
      .stopped (.array element length)
  | .vec element, .list items =>
    if items.length < countLimit then
      .andThen (.done (Bytes.ofNat countWidth items.length))
        (.sequence (items.map element.write))
    else
      .stopped (.vec element)
  | kind, _ => .stopped kind

/-! ## §3. All fields. -/

/-- Writes the value of a field; a stop names the field. -/
def Field.write (field : Field) (value : Value) : Written Error :=
  (field.kind.write value).mapStop (.valueMismatch field.name)

namespace Layout

/-- Writes one value per field. -/
def write (layout : Layout) (values : List Value) : Written Error :=
  if values.length = layout.fields.length then
    .sequence (List.zipWith Field.write layout.fields values)
  else
    .stopped (.fieldCount layout.fields.length values.length)

/-- Writes one value per field behind the bytes that are already there. -/
def encodeInto (layout : Layout) (values : List Value) (out : List UInt8) : Written Error :=
  Written.andThen (.done out) (layout.write values)

/-- The bytes of one value per field.  The size of the buffer comes first, so
a layout too wide for any buffer fails whatever the values are. -/
def encode (layout : Layout) (values : List Value) : Except Error (List UInt8) := do
  let _ ← layout.bufferSize.mapError Error.overflow
  (layout.write values).result

end Layout

end MerkleAirdrop
