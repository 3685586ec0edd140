/-
  MerkleAirdrop.Address
  ─────────────────────
  **ADDRESSES AND HASHES AS TEXT.**

  Both are thirty-two bytes and both are written in base 58.  A text of more
  than 44 bytes is refused before it is read, since no thirty-two bytes have
  a text that long.
-/
import MerkleAirdrop.Bytes
import MerkleAirdrop.Base58

namespace MerkleAirdrop

/-- Why a text does not name thirty-two bytes. -/
inductive KeyTextError where
  /-- It is too long, or stands for another number of bytes. -/
  | wrongSize
  /-- It is not base 58. -/
  | notBase58
  deriving DecidableEq, Repr

namespace Address

/-- The longest base-58 text of thirty-two bytes, in bytes. -/
def maxTextSize : Nat := 44

/-- The base-58 text of an address. -/
def text (address : Address) : String := Base58.encode address.toList

/-- The thirty-two bytes that a base-58 text stands for. -/
def parse (text : String) : Except KeyTextError Address :=
  if maxTextSize < text.utf8ByteSize then
    .error .wrongSize
  else
    match Base58.decode text with
    | .error _ => .error .notBase58
    | .ok bytes =>
      match Block.ofList? 32 bytes with
      | some address => .ok address
      | none => .error .wrongSize

/-- The address that a text names, if it names one. -/
def parse? (text : String) : Option Address := (parse text).toOption

/-- What is said of a text that names no address. -/
def errorMessage : KeyTextError → String
  | .wrongSize => "String is the wrong size"
  | .notBase58 => "Invalid Base58 string"

end Address

/-- What is said of a text that names no hash. -/
def Hash.errorMessage : KeyTextError → String
  | .wrongSize => "string decoded to wrong size for hash"
  | .notBase58 => "failed to decoded string to hash"

end MerkleAirdrop
