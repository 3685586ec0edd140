/-
  MerkleAirdrop.Error
  ───────────────────
  **WHAT CAN GO WRONG, AND ITS WORDING.**

  One type holds every cause for which encoding, decoding, deriving or
  fetching can fail.  The wording is `Error.message?`; nothing else in the
  library builds these texts.
-/
import MerkleAirdrop.Address
import MerkleAirdrop.Layout.Kind

namespace MerkleAirdrop

/-- Why an operation failed. -/
inductive Error where
  /-- A buffer of `available` bytes ends before the `needed` bytes. -/
  | malformedInput (needed available : Nat)
  /-- A buffer begins with the tag of something else. -/
  | wrongDiscriminator (record : String) (expected found : Discriminator)
  /-- An account belongs to another program. -/
  | wrongOwner (address expected found : Address)
  /-- The value of a field is not of the kind met there. -/
  | valueMismatch (field : String) (kind : Kind)
  /-- There are more or fewer values than fields. -/
  | fieldCount (fields values : Nat)
  /-- The answer to a batch has another length. -/
  | accountCount (requested returned : Nat)
  /-- No instruction has this tag. -/
  | unknownInstruction (found : Discriminator)
  /-- The request got no answer; some transports say why. -/
  | requestFailed (cause : Option String)
  /-- A width left the 64-bit range. -/
  | overflow (cause : Overflow)
  /-- Every bump of a derivation gives a point of the curve. -/
  | noBump
  deriving DecidableEq

/-- A list of bytes in brackets. -/
def bytesText (bytes : List UInt8) : String :=
  "[" ++ ", ".intercalate (bytes.map fun b => toString b.toNat) ++ "]"

/-- The error in words; a request that failed without a cause has none. -/
def Error.message? : Error → Option String
  | .malformedInput needed available =>
    some s!"Malformed input: needed {needed} bytes, got {available}"
  | .wrongDiscriminator record expected found =>
    some (s!"Invalid {record} discriminator: expected {bytesText expected.toList}"
      ++ s!", got {bytesText found.toList}")
  | .wrongOwner address expected found =>
    some (s!"Account {Address.text address} is owned by {Address.text found}"
      ++ s!", expected {Address.text expected}")
  | .valueMismatch field kind => some s!"Value for field `{field}` does not match {kind.text}"
  | .fieldCount fields values => some s!"Layout has {fields} fields, got {values} values"
  | .accountCount requested returned =>
    some s!"Requested {requested} accounts, transport returned {returned}"
  | .unknownInstruction found =>
    some s!"Unknown instruction discriminator {bytesText found.toList}"
  | .requestFailed cause => cause.map fun text => s!"Rpc Error: Custom: {text}"
  | .overflow cause => some cause.message
  | .noBump => some "Unable to find a viable program address bump seed"

end MerkleAirdrop
