/-
  MerkleAirdrop.Ed25519
  ─────────────────────
  **WHICH THIRTY-TWO BYTES ARE A POINT OF THE CURVE.**

  The curve is `-x² + y² = 1 + d·x²·y²` over the field of `2 ^ 255 - 19`
  elements.  A compressed point is its `y`, lowest byte first, with one bit of
  `x` at the very top.  The bytes are a point when `x² = (y² - 1) / (d·y² + 1)`
  has a solution; the top bit only tells the two solutions apart and plays no
  part, and a `y` at or above the modulus counts as its remainder.

  The denominator is never zero, because `-1` is a square and `d` is not, so
  the quotient is a square exactly when the product is.
-/
import MerkleAirdrop.Bytes

namespace MerkleAirdrop.Ed25519

/-- The number of field elements. -/
def modulus : Nat := (1 <<< 255) - 19

/-- The constant `-121665 / 121666` of the curve. -/
def d : Nat := 37095705934669439343138083508754565189542113879843219016388785533085940283555

/-- The power `base ^ exponent` modulo `m`, by repeated squaring. -/
def powMod (m base exponent : Nat) : Nat :=
  if exponent = 0 then
    1 % m
  else
    let half := powMod m (base * base % m) (exponent / 2)
    if exponent % 2 = 0 then half else half * base % m
termination_by exponent
decreasing_by omega

/-- Whether a number is a square modulo the prime `modulus`: zero is, and of
the others those whose power to half of `modulus - 1` is one. -/
def isSquare (n : Nat) : Bool :=
  n % modulus = 0 || powMod modulus n ((modulus - 1) / 2) = 1

/-- Whether thirty-two bytes are a compressed point. -/
def isPoint (bytes : Block 32) : Bool :=
  -- the top bit belongs to `x`; a `y` beyond the modulus is reduced below
  let y := Bytes.toNat bytes.toList % (1 <<< 255)
  -- `y² - 1` kept from going below zero
  let numerator := y * y + modulus - 1
  let denominator := d * (y * y) + 1
  isSquare (numerator * denominator % modulus)

end MerkleAirdrop.Ed25519
