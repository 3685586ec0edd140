/-
  MerkleAirdrop.Proofs.Base58
  ───────────────────────────
  **BYTES ARE READ BACK FROM THEIR BASE-58 TEXT.**

      Base58.decode_encode      every byte string
      Address.parse?_text       every address, whose text is never too long

  A text is a row of ones for the zero bytes in front and then the digits of
  the number that the bytes write (`Base58.encode_eq`).  The number's first
  digit is not zero, in either base, so the row ends where it ended before.
-/
import MerkleAirdrop.Address
import Mathlib.Data.List.TakeWhile
import Mathlib.Data.Nat.Digits.Lemmas
import Mathlib.Data.String.Basic

namespace MerkleAirdrop

namespace Base58

/-! ## §1. Positional notation. -/

theorem digits_eq {b : Nat} (hb : 1 < b) (n : Nat) : digits b n = Nat.digits b n := by
  induction n using Nat.strongRecOn with
  | ind n ih =>
    rw [digits]
    split
    next h =>
      have hn : n = 0 := by omega
      rw [hn, Nat.digits_zero]
    next h =>
      rw [Nat.digits_def' hb (by omega), ih (n / b) (Nat.div_lt_self (by omega) hb)]

theorem value_eq (b : Nat) (ds : List Nat) : value b ds = Nat.ofDigits b ds := by
  induction ds with
  | nil => rfl
  | cons d ds ih => rw [value, ih, Nat.ofDigits_cons]

/-- Zeros at the high end add nothing. -/
theorem value_append_zeros (b : Nat) (ds : List Nat) (k : Nat) :
    value b (ds ++ List.replicate k 0) = value b ds := by
  rw [value_eq, value_eq, Nat.ofDigits_append_replicate_zero]

/-- The highest digit of a number is not zero. -/
theorem digits_reverse_head {b : Nat} (hb : 1 < b) (n : Nat) :
    ∀ d, (digits b n).reverse.head? = some d → d ≠ 0 := by
  intro d hd
  rw [List.head?_reverse, digits_eq hb] at hd
  have hn : n ≠ 0 := by
    rintro rfl
    rw [Nat.digits_zero] at hd
    cases hd
  rw [List.getLast?_eq_some_getLast (Nat.digits_ne_nil_iff_ne_zero.2 hn)] at hd
  rw [← Option.some.inj hd]
  exact Nat.getLast_digit_ne_zero b hn

/-- Digits whose highest is not zero are those of the number they write. -/
theorem digits_value {b : Nat} (hb : 1 < b) {ds : List Nat} (hds : ∀ d ∈ ds, d < b)
    (hhead : ∀ d, ds.reverse.head? = some d → d ≠ 0) : digits b (value b ds) = ds := by
  rw [value_eq, digits_eq hb]
  refine Nat.digits_ofDigits b hb ds hds fun hne => hhead _ ?_
  rw [List.head?_reverse, List.getLast?_eq_some_getLast hne]

/-! ## §2. Zeros in front. -/

theorem takeWhile_zeros_append {l : List Nat} (h : ∀ d, l.head? = some d → d ≠ 0) (k : Nat) :
    (List.replicate k 0 ++ l).takeWhile (· == 0) = List.replicate k 0 := by
  rw [List.takeWhile_append_of_pos fun d hd => by rw [List.eq_of_mem_replicate hd]; rfl]
  cases l with
  | nil => simp
  | cons d l =>
    have hd : (d == 0) = false := beq_false_of_ne (h d rfl)
    simp [hd]

/-- A byte string is zeros and then nothing, or a byte that is not zero. -/
theorem exists_zeros (bytes : List UInt8) :
    ∃ k rest, bytes = List.replicate k 0 ++ rest ∧ (∀ b, rest.head? = some b → b ≠ 0) ∧
      bytes.takeWhile (· == 0) = List.replicate k 0 := by
  have hzeros : bytes.takeWhile (· == 0)
      = List.replicate (bytes.takeWhile (· == 0)).length 0 :=
    List.eq_replicate_iff.2 ⟨rfl, fun b hb => by simpa using List.mem_takeWhile_imp hb⟩
  refine ⟨_, bytes.dropWhile (· == 0), ?_, ?_, hzeros⟩
  · rw [← hzeros, List.takeWhile_append_dropWhile]
  · intro b hb
    have hfirst := List.head?_dropWhile_not (· == (0 : UInt8)) bytes
    rw [hb] at hfirst
    exact ne_of_beq_false hfirst

/-! ## §3. The text of a byte string. -/

/-- The number that bytes write, highest first. -/
def number (bytes : List UInt8) : Nat := value 256 (bytes.reverse.map UInt8.toNat)

theorem number_zeros_append (k : Nat) (bytes : List UInt8) :
    number (List.replicate k 0 ++ bytes) = number bytes := by
  unfold number
  rw [List.reverse_append, List.reverse_replicate, List.map_append, List.map_replicate]
  exact value_append_zeros 256 _ k

/-- Bytes that do not begin with a zero are the digits of their number. -/
theorem digits_number {bytes : List UInt8} (h : ∀ b, bytes.head? = some b → b ≠ 0) :
    (digits 256 (number bytes)).reverse.map UInt8.ofNat = bytes := by
  have hdigits : digits 256 (number bytes) = bytes.reverse.map UInt8.toNat := by
    refine digits_value (by decide) ?_ ?_
    · intro d hd
      obtain ⟨b, _, rfl⟩ := List.mem_map.1 hd
      exact b.toNat_lt
    · intro d hd
      rw [← List.map_reverse, List.reverse_reverse, List.head?_map, Option.map_eq_some_iff] at hd
      obtain ⟨b, hb, rfl⟩ := hd
      exact fun hzero => h b hb (UInt8.toNat_inj.1 hzero)
  rw [hdigits, ← List.map_reverse, List.reverse_reverse, List.map_map]
  conv_rhs => rw [← List.map_id bytes]
  exact List.map_congr_left fun b _ => UInt8.ofNat_toNat

/-- The digits of a text, highest first: zeros for the zero bytes in front,
then the number of the rest. -/
def textDigits (zeros : Nat) (bytes : List UInt8) : List Nat :=
  List.replicate zeros 0 ++ (digits 58 (number bytes)).reverse

theorem lt_of_mem_textDigits {zeros : Nat} {bytes : List UInt8} :
    ∀ d ∈ textDigits zeros bytes, d < 58 := by
  intro d hd
  rcases List.mem_append.1 hd with hd | hd
  · rw [List.eq_of_mem_replicate hd]
    decide
  · rw [List.mem_reverse, digits_eq (by decide)] at hd
    exact Nat.digits_lt_base (by decide) hd

/-- **A text is one character for each of its digits.** -/
theorem encode_eq {bytes rest : List UInt8} {zeros : Nat}
    (hbytes : bytes = List.replicate zeros 0 ++ rest)
    (hzeros : bytes.takeWhile (· == 0) = List.replicate zeros 0) :
    encode bytes = String.ofList ((textDigits zeros rest).map digitChar) := by
  have hnumber : value 256 (bytes.reverse.map UInt8.toNat) = number rest := by
    rw [← number_zeros_append zeros rest, ← hbytes]
    rfl
  unfold encode textDigits
  dsimp only
  rw [hzeros, hnumber, List.map_append, List.map_replicate, List.map_replicate]
  rfl

theorem digitValues_digitChar (ds : List Nat) :
    ∀ {index : Nat}, (∀ d ∈ ds, d < 58) → digitValues index (ds.map digitChar) = .ok ds := by
  induction ds with
  | nil =>
    intro index _
    rfl
  | cons d ds ih =>
    intro index h
    rw [List.forall_mem_cons] at h
    rw [List.map_cons, digitValues, digitValue?_digitChar d h.1, ih h.2]
    rfl

/-- The digits of a text are read as the bytes. -/
theorem decode_textDigits (zeros : Nat) {rest : List UInt8}
    (h : ∀ b, rest.head? = some b → b ≠ 0) :
    decode (String.ofList ((textDigits zeros rest).map digitChar))
      = .ok (List.replicate zeros 0 ++ rest) := by
  unfold decode
  rw [String.toList_ofList, digitValues_digitChar _ lt_of_mem_textDigits]
  show Except.ok (_ ++ _) = _
  have hfront : (textDigits zeros rest).takeWhile (· == 0) = List.replicate zeros 0 :=
    takeWhile_zeros_append (digits_reverse_head (by decide) _) zeros
  have hnumber : value 58 (textDigits zeros rest).reverse = number rest := by
    unfold textDigits
    rw [List.reverse_append, List.reverse_reverse, List.reverse_replicate, value_append_zeros,
      value_digits (by decide)]
  rw [hfront, hnumber, digits_number h, List.map_replicate]

/-- **Bytes are read back from their text.** -/
theorem decode_encode (bytes : List UInt8) : decode (encode bytes) = .ok bytes := by
  obtain ⟨zeros, rest, hbytes, hrest, hzeros⟩ := exists_zeros bytes
  rw [encode_eq hbytes hzeros, decode_textDigits zeros hrest, ← hbytes]

/-- A text is made of digits. -/
theorem mem_alphabet_of_mem_encode (bytes : List UInt8) :
    ∀ c ∈ (encode bytes).toList, c ∈ alphabet := by
  intro c hc
  obtain ⟨zeros, rest, hbytes, -, hzeros⟩ := exists_zeros bytes
  rw [encode_eq hbytes hzeros, String.toList_ofList] at hc
  obtain ⟨d, hd, rfl⟩ := List.mem_map.1 hc
  have hdigit : ∀ d < 58, digitChar d ∈ alphabet := by decide
  exact hdigit d (lt_of_mem_textDigits d hd)

/-! ## §4. The length of a text. -/

theorem utf8Size_digitChar : ∀ d < 58, (digitChar d).utf8Size = 1 := by decide

theorem utf8Len_digitChars (ds : List Nat) :
    (∀ d ∈ ds, d < 58) → String.utf8Len (ds.map digitChar) = ds.length := by
  induction ds with
  | nil =>
    intro _
    rfl
  | cons d ds ih =>
    intro h
    rw [List.forall_mem_cons] at h
    rw [List.map_cons, String.utf8Len_cons, ih h.2, utf8Size_digitChar d h.1, List.length_cons]

theorem number_lt (bytes : List UInt8) : number bytes < 256 ^ bytes.length := by
  have hlt := Nat.ofDigits_lt_base_pow_length (b := 256) (l := bytes.reverse.map UInt8.toNat)
    (by decide) fun d hd => by
      obtain ⟨b, _, rfl⟩ := List.mem_map.1 hd
      exact b.toNat_lt
  rw [List.length_map, List.length_reverse] at hlt
  rwa [number, value_eq]

/-- A text is not longer than `k` characters if the bytes behind the zeros
write a number of so many digits less the zeros. -/
theorem utf8ByteSize_encode_le {bytes rest : List UInt8} {zeros k : Nat}
    (hbytes : bytes = List.replicate zeros 0 ++ rest)
    (hzeros : bytes.takeWhile (· == 0) = List.replicate zeros 0)
    (hk : 256 ^ rest.length ≤ 58 ^ k) : (encode bytes).utf8ByteSize ≤ zeros + k := by
  have hdigits : (digits 58 (number rest)).length ≤ k := by
    rw [digits_eq (by decide), Nat.digits_length_le_iff (by decide)]
    exact Nat.lt_of_lt_of_le (number_lt rest) hk
  rw [encode_eq hbytes hzeros, String.utf8ByteSize_ofList, utf8Len_digitChars _ lt_of_mem_textDigits,
    textDigits, List.length_append, List.length_replicate, List.length_reverse]
  exact Nat.add_le_add_left hdigits zeros

end Base58

/-! ## §5. Addresses. -/

namespace Address

/-- Each zero byte saves a whole digit, and more than a digit's worth. -/
theorem pow_le_pow : ∀ zeros ≤ 32, 256 ^ (32 - zeros) ≤ 58 ^ (44 - zeros) := by decide

/-- No address has a text of more than 44 bytes. -/
theorem utf8ByteSize_text_le (address : Address) :
    (text address).utf8ByteSize ≤ maxTextSize := by
  obtain ⟨zeros, rest, hbytes, _, hzeros⟩ := Base58.exists_zeros address.toList
  have hlength := address.length_toList
  rw [hbytes, List.length_append, List.length_replicate] at hlength
  have hrest : rest.length = 32 - zeros := by omega
  have hle := Base58.utf8ByteSize_encode_le hbytes hzeros (k := 44 - zeros)
    (hrest ▸ pow_le_pow zeros (by omega))
  unfold text maxTextSize
  omega

/-- **An address is read back from its text.** -/
theorem parse_text (address : Address) : parse (text address) = .ok address := by
  unfold parse
  rw [if_neg (Nat.not_lt.2 address.utf8ByteSize_text_le)]
  unfold text
  rw [Base58.decode_encode]
  dsimp only
  rw [Block.ofList?_toList]

theorem parse?_text (address : Address) : parse? (text address) = some address := by
  unfold parse?
  rw [parse_text]
  rfl

end Address

end MerkleAirdrop
