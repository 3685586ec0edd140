/-
  MerkleAirdrop.Numeral
  ─────────────────────
  **INTEGERS IN TEXT.**

  A numeral is an optional sign and one or more digits; leading zeros are
  allowed, blanks are not.  It is read from left to right, and the first
  character that is no digit or that takes the number out of its range
  decides how it fails.  A minus sign is a sign only where negative numbers
  are in the range.
-/
namespace MerkleAirdrop

/-- Why a text is not a numeral of a range. -/
inductive NumeralError where
  | empty
  | invalidDigit
  | tooLarge
  | tooSmall
  deriving DecidableEq, Repr

/-- The error in words. -/
def NumeralError.message : NumeralError → String
  | .empty => "cannot parse integer from empty string"
  | .invalidDigit => "invalid digit found in string"
  | .tooLarge => "number too large to fit in target type"
  | .tooSmall => "number too small to fit in target type"

namespace Numeral

/-! ## §1. Digits. -/

/-- The value of a digit in a base up to sixteen; letters of either case
follow the nine. -/
def digitValue? (base : Nat) (c : Char) : Option Nat :=
  let value? :=
    if '0' ≤ c ∧ c ≤ '9' then some (c.toNat - 48)
    else if 'a' ≤ c ∧ c ≤ 'f' then some (c.toNat - 87)
    else if 'A' ≤ c ∧ c ≤ 'F' then some (c.toNat - 55)
    else none
  value?.filter (· < base)

/-- Reads digits behind a number already read.  A number over `limit` is
`outOfRange`. -/
def readDigits (base limit : Nat) (outOfRange : NumeralError) (number : Nat) :
    List Char → Except NumeralError Nat
  | [] => .ok number
  | c :: rest =>
    match digitValue? base c with
    | none => .error .invalidDigit
    | some d =>
      let next := number * base + d
      if limit < next then .error outOfRange else readDigits base limit outOfRange next rest

/-! ## §2. Ranges. -/

/-- A number from 0 to `limit`, with or without a plus sign. -/
def readUnsigned (base limit : Nat) : List Char → Except NumeralError Nat
  | [] => .error .empty
  | ['+'] | ['-'] => .error .invalidDigit
  | '+' :: digits => readDigits base limit .tooLarge 0 digits
  | digits => readDigits base limit .tooLarge 0 digits

/-- A number from `-limit - 1` to `limit`, with or without a sign. -/
def readSigned (base limit : Nat) : List Char → Except NumeralError Int
  | [] => .error .empty
  | ['+'] | ['-'] => .error .invalidDigit
  | '-' :: digits => (readDigits base (limit + 1) .tooSmall 0 digits).map fun n => -(n : Int)
  | '+' :: digits => (readDigits base limit .tooLarge 0 digits).map fun n => (n : Int)
  | digits => (readDigits base limit .tooLarge 0 digits).map fun n => (n : Int)

/-- A 64-bit unsigned number in decimal. -/
def readU64 (text : String) : Except NumeralError UInt64 :=
  (readUnsigned 10 (UInt64.size - 1) text.toList).map UInt64.ofNat

/-- A 64-bit signed number in decimal. -/
def readI64 (text : String) : Except NumeralError Int64 :=
  (readSigned 10 (UInt64.size / 2 - 1) text.toList).map Int64.ofInt

/-- A 32-bit unsigned number in a base up to sixteen. -/
def readU32 (base : Nat) (digits : List Char) : Except NumeralError UInt32 :=
  (readUnsigned base (UInt32.size - 1) digits).map UInt32.ofNat

/-! ## §3. Writing. -/

/-- An unsigned number in decimal, without leading zeros. -/
def writeU64 (v : UInt64) : String := toString v.toNat

/-- A signed number in decimal, without leading zeros; a plus sign is not
written. -/
def writeI64 (v : Int64) : String := toString v.toInt

end Numeral

end MerkleAirdrop
