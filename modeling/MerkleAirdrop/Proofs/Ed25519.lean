/-
  MerkleAirdrop.Proofs.Ed25519
  ────────────────────────────
  **DERIVED ADDRESSES LIE OFF THE CURVE.**

      Ed25519.prime_modulus        the modulus is prime
      Ed25519.isPoint_iff          thirty-two bytes pass the test exactly if
                                   the curve has a point with their `y`
      Derivation.forall_not_onCurve
                                   no point of the curve has the `y` of an
                                   address that was found

  The test raises one product to a power; the curve asks for a root of a
  quotient.  Between the two stand that the modulus is prime, that `-1` is a
  square and that the constant of the curve is none.  All three are checked by
  `powMod` on numbers.
-/
import MerkleAirdrop.Proofs.Derivation
import Mathlib.NumberTheory.LegendreSymbol.Basic
import Mathlib.NumberTheory.LucasPrimality
import Mathlib.Tactic.FieldSimp
import Mathlib.Tactic.LinearCombination
import Mathlib.Tactic.NormNum.Prime

namespace MerkleAirdrop

namespace Ed25519

/-! ## §1. Powers. -/

theorem powMod_eq (m base exponent : Nat) : powMod m base exponent = base ^ exponent % m := by
  induction exponent using Nat.strongRecOn generalizing base with
  | ind exponent ih =>
    rw [powMod]
    split
    · next h => rw [h, Nat.pow_zero]
    · next h =>
      have hhalf : powMod m (base * base % m) (exponent / 2)
          = (base ^ 2) ^ (exponent / 2) % m := by
        rw [ih (exponent / 2) (by omega), ← Nat.pow_mod, Nat.pow_two]
      have hsplit := Nat.div_add_mod exponent 2
      rw [hhalf, ← Nat.pow_mul]
      rcases Nat.mod_two_eq_zero_or_one exponent with he | he
      · rw [if_pos he, show 2 * (exponent / 2) = exponent by omega]
      · have hone : 2 * (exponent / 2) + 1 = exponent := by omega
        rw [if_neg (by omega), Nat.mod_mul_mod, ← Nat.pow_add_one, hone]

/-- A power is one among the remainders if it is worked out to be one. -/
theorem pow_eq_one_iff {m : Nat} (hm : 2 ≤ m) (base exponent : Nat) :
    (base : ZMod m) ^ exponent = 1 ↔ powMod m base exponent = 1 := by
  rw [powMod_eq, ← Nat.cast_pow, ← Nat.cast_one, ZMod.natCast_eq_natCast_iff',
    Nat.mod_eq_of_lt hm]

/-! ## §2. The modulus is prime. -/

/-- What shows that a number is prime: a base whose powers run through all
remainders but zero, and the primes of the number before it. -/
structure Certificate where
  number : Nat
  base : Nat
  factors : List Nat

namespace Certificate

/-- The factors are known, make up the number before this one, and the powers
of the base come back to one there and at no part of it. -/
def check (known : List Nat) (c : Certificate) : Bool :=
  c.factors.all (known.contains ·) && c.factors.prod + 1 == c.number && Nat.ble 2 c.number &&
    powMod c.number c.base (c.number - 1) == 1 &&
    c.factors.all fun q => powMod c.number c.base ((c.number - 1) / q) != 1

/-- Certificates in order, each with the numbers before it as known. -/
def checkAll : List Nat → List Certificate → Bool
  | _, [] => true
  | known, c :: cs => c.check known && checkAll (c.number :: known) cs

theorem prime_of_check {known : List Nat} {c : Certificate} (hknown : ∀ q ∈ known, q.Prime)
    (h : c.check known = true) : c.number.Prime := by
  simp only [check, Bool.and_eq_true, List.all_eq_true, List.contains_iff_mem, beq_iff_eq,
    bne_iff_ne, Nat.ble_eq] at h
  obtain ⟨⟨⟨⟨hfactors, hprod⟩, htwo⟩, hone⟩, hparts⟩ := h
  refine lucas_primality c.number (c.base : ZMod c.number) ((pow_eq_one_iff htwo _ _).2 hone) ?_
  intro q hq hdvd
  rw [← hprod, Nat.add_sub_cancel] at hdvd
  have hmem : q ∈ c.factors :=
    mem_list_primes_of_dvd_prod hq.prime (fun f hf => (hknown f (hfactors f hf)).prime) hdvd
  exact (pow_eq_one_iff htwo _ _).not.2 (hparts q hmem)

/-- **What has a checked certificate is prime.** -/
theorem prime_of_checkAll {cs : List Certificate} : ∀ {known : List Nat},
    (∀ q ∈ known, q.Prime) → checkAll known cs = true → ∀ c ∈ cs, c.number.Prime := by
  -- the known primes grow along the list, so they are quantified over
  induction cs with
  | nil => exact fun _ _ => List.forall_mem_nil _
  | cons c cs ih =>
    intro known hknown h
    rw [checkAll, Bool.and_eq_true] at h
    have hprime := prime_of_check hknown h.1
    exact List.forall_mem_cons.2 ⟨hprime, ih (List.forall_mem_cons.2 ⟨hprime, hknown⟩) h.2⟩

end Certificate

/-- Small primes of the certificates. -/
def smallPrimes : List Nat :=
  [2, 3, 5, 7, 13, 19, 31, 47, 107, 127, 223, 353, 2437, 4153, 57467, 65147, 75707, 132049, 430751,
    569003, 1923133, 8574133]

/-- The way up from small primes to the modulus. -/
def certificates : List Certificate := [
  ⟨2773320623, 5, [2, 2437, 569003]⟩,
  ⟨72106336199, 7, [2, 13, 2773320623]⟩,
  ⟨1919519569386763, 2, [2, 3, 7, 19, 47, 47, 127, 8574133]⟩,
  ⟨31757755568855353, 10, [2, 2, 2, 3, 31, 107, 223, 4153, 430751]⟩,
  ⟨75445702479781427272750846543864801, 7,
    [2, 2, 2, 2, 2, 3, 3, 5, 5, 75707, 72106336199, 1919519569386763]⟩,
  ⟨74058212732561358302231226437062788676166966415465897661863160754340907, 2,
    [2, 3, 353, 57467, 132049, 1923133, 31757755568855353, 75445702479781427272750846543864801]⟩,
  ⟨modulus, 2, [2, 2, 3, 65147,
    74058212732561358302231226437062788676166966415465897661863160754340907]⟩]

theorem prime_of_mem_smallPrimes : ∀ q ∈ smallPrimes, q.Prime := by
  norm_num [smallPrimes]

theorem prime_modulus : modulus.Prime := by
  have hcheck : Certificate.checkAll smallPrimes certificates = true := by decide +kernel
  exact Certificate.prime_of_checkAll prime_of_mem_smallPrimes hcheck
    ⟨modulus, 2, _⟩ (List.mem_of_getLast? rfl)

instance : Fact modulus.Prime := ⟨prime_modulus⟩

/-! ## §3. Squares. -/

/-- **The test for squares is right.** -/
theorem isSquare_iff (n : Nat) : isSquare n = true ↔ IsSquare (n : ZMod modulus) := by
  have htwo : 2 ≤ modulus := by decide
  have hhalf : (modulus - 1) / 2 = modulus / 2 := by decide
  unfold isSquare
  rw [Bool.or_eq_true, decide_eq_true_eq, decide_eq_true_eq, hhalf, ← pow_eq_one_iff htwo,
    ← Nat.dvd_iff_mod_eq_zero, ← ZMod.natCast_eq_zero_iff]
  by_cases hn : (n : ZMod modulus) = 0
  · simp [hn]
  · rw [ZMod.euler_criterion modulus hn]
    simp [hn]

theorem isSquare_neg_one : IsSquare (-1 : ZMod modulus) := by
  have hcast : ((modulus - 1 : Nat) : ZMod modulus) = -1 := by
    rw [Nat.cast_sub (by decide), ZMod.natCast_self, Nat.cast_one, zero_sub]
  rw [← hcast, ← isSquare_iff]
  decide +kernel

theorem not_isSquare_d : ¬ IsSquare (d : ZMod modulus) := by
  rw [← isSquare_iff]
  decide +kernel

/-! ## §4. Points of the curve. -/

/-- The equation of the curve. -/
def OnCurve (x y : ZMod modulus) : Prop :=
  -x ^ 2 + y ^ 2 = 1 + -(121665 / 121666) * x ^ 2 * y ^ 2

/-- The constant is the quotient that it stands for. -/
theorem cast_d : (d : ZMod modulus) = -(121665 / 121666) := by
  have hne : (121666 : ZMod modulus) ≠ 0 := by
    have hdvd : ¬ modulus ∣ 121666 := by decide +kernel
    exact_mod_cast (ZMod.natCast_eq_zero_iff 121666 modulus).not.2 hdvd
  have hmul : (d : ZMod modulus) * 121666 + 121665 = 0 := by
    have hdvd : modulus ∣ d * 121666 + 121665 := by decide +kernel
    exact_mod_cast (ZMod.natCast_eq_zero_iff _ modulus).2 hdvd
  rw [← neg_div, eq_div_iff hne]
  exact eq_neg_of_add_eq_zero_left hmul

section

variable {p : Nat} [Fact p.Prime] {a y : ZMod p}

/-- The denominator is never zero. -/
theorem denominator_ne_zero (hneg : IsSquare (-1 : ZMod p)) (ha : ¬ IsSquare a) :
    a * y ^ 2 + 1 ≠ 0 := by
  intro hzero
  obtain ⟨i, hi⟩ := hneg
  have hay : a * y ^ 2 = i * i := by
    rw [← hi]
    exact eq_neg_of_add_eq_zero_left hzero
  by_cases hy : y = 0
  · simp [hy] at hzero
  · -- then `a` would be the square of `i / y`
    refine ha ⟨i / y, ?_⟩
    rw [div_mul_div_comm, eq_div_iff (mul_ne_zero hy hy), ← pow_two, hay]

/-- A root of the quotient is told by the product being a square. -/
theorem exists_root_iff (hneg : IsSquare (-1 : ZMod p)) (ha : ¬ IsSquare a) :
    (∃ x, -x ^ 2 + y ^ 2 = 1 + a * x ^ 2 * y ^ 2) ↔
      IsSquare ((y ^ 2 - 1) * (a * y ^ 2 + 1)) := by
  have hne := denominator_ne_zero (y := y) hneg ha
  constructor
  · rintro ⟨x, hx⟩
    exact ⟨x * (a * y ^ 2 + 1), by linear_combination (a * y ^ 2 + 1) * hx⟩
  · rintro ⟨r, hr⟩
    refine ⟨r / (a * y ^ 2 + 1), ?_⟩
    field_simp
    linear_combination (a * y ^ 2 + 1) * hr

end

/-- The product that is tested, with `1` taken off below a modulus. -/
theorem cast_product (n : Nat) :
    (((n * n + modulus - 1) * (d * (n * n) + 1) % modulus : Nat) : ZMod modulus)
      = ((n : ZMod modulus) ^ 2 - 1) * (d * (n : ZMod modulus) ^ 2 + 1) := by
  have hone : 1 ≤ n * n + modulus := Nat.le_add_left_of_le (by decide)
  rw [ZMod.natCast_mod, Nat.cast_mul, Nat.cast_sub hone, Nat.cast_add, ZMod.natCast_self]
  push_cast
  ring

/-- **Thirty-two bytes pass the test exactly if the curve has a point with their
`y`**, which is what they write without the top bit. -/
theorem isPoint_iff (bytes : Block 32) :
    isPoint bytes = true ↔
      ∃ x, OnCurve x ((Bytes.toNat bytes.toList % 2 ^ 255 : Nat) : ZMod modulus) := by
  unfold isPoint OnCurve
  rw [Nat.one_shiftLeft, ← cast_d, exists_root_iff isSquare_neg_one not_isSquare_d, ← cast_product]
  exact isSquare_iff _

end Ed25519

/-- **No point of the curve has the `y` of an address that was found**, so no key
pair has the address. -/
theorem Derivation.forall_not_onCurve {derivation : Derivation} {found : DerivedAddress}
    (h : derivation.find = .ok found) (x : ZMod Ed25519.modulus) :
    ¬ Ed25519.OnCurve x
      ((Bytes.toNat found.address.toList % 2 ^ 255 : Nat) : ZMod Ed25519.modulus) := by
  intro hx
  have hpoint := (Ed25519.isPoint_iff found.address).2 ⟨x, hx⟩
  rw [isPoint_of_find h] at hpoint
  cases hpoint

end MerkleAirdrop
