/-
  MerkleAirdrop.Base58
  ────────────────────
  **BASE-58 TEXT.**

  A byte string is read as one number, highest byte first, and that number is
  written in base 58 with the alphabet below, which leaves out the digits and
  letters that are easily confused (`0`, `O`, `I`, `l`).  Zero bytes in front
  would be lost in the number, so each of them is written as one `1`.

  `decode` names the first character that is not in the alphabet and its
  place, counted in bytes; all characters before it are one byte long, so
  that is also its place among the characters.

      value_digits             2 ≤ b → value b (digits b n) = n
      digitValue?_digitChar    a digit's character stands for the digit
-/
namespace MerkleAirdrop.Base58

/-! ## §1. Positional notation. -/

/-- The digits of `n` in base `b`, lowest first, none for zero. -/
def digits (b n : Nat) : List Nat :=
  if _h : b < 2 ∨ n = 0 then [] else n % b :: digits b (n / b)
termination_by n
decreasing_by exact Nat.div_lt_self (by omega) (by omega)

/-- The number that `ds` writes in base `b`, lowest digit first. -/
def value (b : Nat) : List Nat → Nat
  | [] => 0
  | d :: ds => d + b * value b ds

theorem value_digits {b : Nat} (hb : 2 ≤ b) (n : Nat) : value b (digits b n) = n := by
  induction n using Nat.strongRecOn with
  | ind n ih =>
    rw [digits]
    split
    · next h =>
      rcases h with h | h
      · omega
      · exact h.symm
    · next h =>
      rw [value, ih (n / b) (Nat.div_lt_self (by omega) (by omega))]
      exact Nat.mod_add_div n b

/-! ## §2. The alphabet. -/

/-- The fifty-eight digits in order. -/
def alphabet : List Char :=
  "123456789ABCDEFGHJKLMNPQRSTUVWXYZabcdefghijkmnopqrstuvwxyz".toList

/-- The character for a digit. -/
def digitChar (d : Nat) : Char := alphabet.getD d '1'

/-- The digit that a character stands for. -/
def digitValue? (c : Char) : Option Nat := alphabet.idxOf? c

theorem digitValue?_digitChar : ∀ d < 58, digitValue? (digitChar d) = some d := by decide

/-! ## §3. Writing. -/

/-- The base-58 text of a byte string. -/
def encode (bytes : List UInt8) : String :=
  let zeros := bytes.takeWhile (· == 0)
  -- the zeros in front add nothing to the number
  let number := value 256 (bytes.reverse.map UInt8.toNat)
  String.ofList (zeros.map (fun _ => '1') ++ (digits 58 number).reverse.map digitChar)

/-! ## §4. Reading. -/

/-- Why a text is not base 58. -/
inductive DecodeError where
  /-- A character outside the alphabet, and its place. -/
  | invalidCharacter (c : Char) (index : Nat)
  /-- A character of more than one byte, and where it starts. -/
  | nonAscii (index : Nat)
  deriving DecidableEq, Repr

/-- A character in single quotes, with control characters, the quote and the
backslash escaped.  Only one-byte characters are ever quoted. -/
def quoted (c : Char) : String :=
  "'" ++ body ++ "'"
where
  body : String :=
    match c with
    | '\x00' => "\\0"
    | '\t' => "\\t"
    | '\n' => "\\n"
    | '\r' => "\\r"
    | '\'' => "\\'"
    | '\\' => "\\\\"
    | c =>
      if c.toNat < 32 ∨ c.toNat = 127 then
        "\\u\x7b" ++ String.ofList (Nat.toDigits 16 c.toNat) ++ "\x7d"
      else
        String.singleton c

/-- The error in words. -/
def DecodeError.message : DecodeError → String
  | .invalidCharacter c index =>
    "provided string contained invalid character " ++ quoted c ++ s!" at byte {index}"
  | .nonAscii index =>
    s!"provided string contained non-ascii character starting at byte {index}"

/-- The digits that the characters stand for, the first of them standing at
place `index`. -/
def digitValues (index : Nat) : List Char → Except DecodeError (List Nat)
  | [] => .ok []
  | c :: rest =>
    match digitValue? c with
    | some d => (digitValues (index + 1) rest).map (d :: ·)
    | none => .error (if c.toNat < 128 then .invalidCharacter c index else .nonAscii index)

/-- The bytes that a base-58 text stands for. -/
def decode (text : String) : Except DecodeError (List UInt8) := do
  let ds ← digitValues 0 text.toList
  let zeros := ds.takeWhile (· == 0)
  let number := value 58 ds.reverse
  return zeros.map (fun _ => 0) ++ (digits 256 number).reverse.map UInt8.ofNat

end MerkleAirdrop.Base58
