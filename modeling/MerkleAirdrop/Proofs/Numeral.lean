/-
  MerkleAirdrop.Proofs.Numeral
  ────────────────────────────
  **INTEGERS ARE READ BACK FROM THEIR TEXT.**

      Numeral.readU64_writeU64   every 64-bit unsigned number
      Numeral.readI64_writeI64   every 64-bit signed number

  A number is written by the digits it is printed with
  (`Numeral.writesDigits_toDigits`), and read from whatever writes it.
-/
import MerkleAirdrop.Proofs.Digits

namespace MerkleAirdrop.Numeral

/-! ## §1. Decimal digits. -/

theorem isDigit_of_mem_toDigits {n : Nat} : ∀ c ∈ Nat.toDigits 10 n, c.isDigit = true :=
  fun _ hc => Nat.isDigit_of_mem_toDigits (by decide) (by decide) hc

/-- A written number begins with a digit. -/
theorem exists_toDigits_eq_cons (n : Nat) :
    ∃ c cs, Nat.toDigits 10 n = c :: cs ∧ c.isDigit = true := by
  obtain ⟨c, cs, h⟩ := List.exists_cons_of_ne_nil (Nat.toDigits_ne_nil (n := n) (b := 10))
  exact ⟨c, cs, h, isDigit_of_mem_toDigits c (h ▸ List.mem_cons_self)⟩

theorem readDigits_toDigits {n limit : Nat} (outOfRange : NumeralError) (h : n ≤ limit) :
    readDigits 10 limit outOfRange 0 (Nat.toDigits 10 n) = .ok n := by
  obtain ⟨c, cs, hcons, _⟩ := exists_toDigits_eq_cons n
  rw [hcons, readDigits_zero_eq_ok_iff (by decide) (by decide), ← hcons]
  exact ⟨writesDigits_toDigits (by decide) n, h⟩

theorem toList_toString (n : Nat) : (toString n).toList = Nat.toDigits 10 n := by
  rw [Nat.toString_eq_ofList_toDigits, String.toList_ofList]

theorem toList_toString_negSucc (n : Nat) :
    (toString (Int.negSucc n)).toList = '-' :: Nat.toDigits 10 (n + 1) := by
  rw [← toList_toString]
  show ("-" ++ toString (n + 1)).toList = _
  rw [String.toList_append]
  rfl

/-! ## §2. Numbers without a sign. -/

theorem readUnsigned_toDigits {n limit : Nat} (h : n ≤ limit) :
    readUnsigned 10 limit (Nat.toDigits 10 n) = .ok n := by
  rw [readUnsigned_eq_ok_iff (by decide) (by decide)]
  exact ⟨⟨_, .inl rfl, writesDigits_toDigits (by decide) n⟩, h⟩

/-- **Every unsigned number is read back.** -/
theorem readU64_writeU64 (v : UInt64) : readU64 (writeU64 v) = .ok v := by
  have hv : v.toNat ≤ UInt64.size - 1 := Nat.le_sub_one_of_lt v.toNat_lt_size
  unfold readU64 writeU64
  rw [toList_toString, readUnsigned_toDigits hv]
  show Except.ok (UInt64.ofNat v.toNat) = _
  rw [UInt64.ofNat_toNat]

/-! ## §3. Numbers with a sign. -/

theorem readSigned_cons {base limit : Nat} {c : Char} (hc : c.isDigit = true) (cs : List Char) :
    readSigned base limit (c :: cs)
      = (readDigits base limit .tooLarge 0 (c :: cs)).map fun n => (n : Int) := by
  unfold readSigned
  split
  next h => cases h
  next h => cases h; cases hc
  next h => cases h; cases hc
  next h => cases h; cases hc
  next h => cases h; cases hc
  next => rfl

theorem readSigned_minus {base limit : Nat} {c : Char} (cs : List Char) :
    readSigned base limit ('-' :: c :: cs)
      = (readDigits base (limit + 1) .tooSmall 0 (c :: cs)).map fun n => -(n : Int) := rfl

theorem readSigned_toString {z : Int} {limit : Nat} (hlow : -(limit : Int) - 1 ≤ z)
    (hhigh : z ≤ limit) : readSigned 10 limit (toString z).toList = .ok z := by
  cases z with
  | ofNat n =>
    have hn : n ≤ limit := Int.ofNat_le.1 hhigh
    obtain ⟨c, cs, hcons, hc⟩ := exists_toDigits_eq_cons n
    show readSigned 10 limit (toString n).toList = _
    rw [toList_toString, hcons, readSigned_cons hc, ← hcons, readDigits_toDigits .tooLarge hn]
    rfl
  | negSucc n =>
    -- the smallest number is one further from zero than the largest
    have hn : n + 1 ≤ limit + 1 := by omega
    obtain ⟨c, cs, hcons, hc⟩ := exists_toDigits_eq_cons (n + 1)
    rw [toList_toString_negSucc, hcons, readSigned_minus, ← hcons, readDigits_toDigits .tooSmall hn]
    rfl

/-- **Every signed number is read back.** -/
theorem readI64_writeI64 (v : Int64) : readI64 (writeI64 v) = .ok v := by
  have hlow := v.le_toInt
  have hhigh := v.toInt_lt
  unfold readI64 writeI64
  rw [readSigned_toString (by show -(2 ^ 63 - 1 : Int) - 1 ≤ _; omega)
    (by show _ ≤ (2 ^ 63 - 1 : Int); omega)]
  show Except.ok (Int64.ofInt v.toInt) = _
  rw [Int64.ofInt_toInt]

end MerkleAirdrop.Numeral
