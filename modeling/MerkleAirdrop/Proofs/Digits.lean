/-
  MerkleAirdrop.Proofs.Digits
  ───────────────────────────
  **WHICH CHARACTERS WRITE A NUMBER.**

  A numeral in a base is said without a reader: its characters are digits of
  the base, letters of either case, and its number is the one that these
  digits have from the highest to the lowest.  Leading zeros are digits like
  any other.

      Numeral.readDigits_eq_ok_iff     a reader takes the digits whose number
                                       does not pass its limit
      Numeral.readUnsigned_eq_ok_iff   the same with a plus sign allowed
      Numeral.readU32_eq_ok_iff        the same for the range of 32 bits
-/
import MerkleAirdrop.Numeral
import MerkleAirdrop.Proofs.Except
import Mathlib.Data.Nat.Digits.Lemmas
import Mathlib.Tactic.Ring

namespace MerkleAirdrop.Numeral

/-! ## §1. Digits. -/

/-- The character is the digit of this value in a base up to sixteen. -/
def IsDigit (base : Nat) (c : Char) (d : Nat) : Prop :=
  d < base ∧ (c = Nat.digitChar d ∨ c = (Nat.digitChar d).toUpper)

/-- The characters are digits of these values, one by one. -/
def AreDigits (base : Nat) (cs : List Char) (ds : List Nat) : Prop :=
  List.Forall₂ (IsDigit base) cs ds

/-- At least one digit, and the number that the digits have. -/
def WritesDigits (base : Nat) (cs : List Char) (n : Nat) : Prop :=
  cs ≠ [] ∧ ∃ ds, AreDigits base cs ds ∧ n = Nat.ofDigits base ds.reverse

/-- Digits, with or without a plus sign in front of them. -/
def WritesUnsigned (base : Nat) (cs : List Char) (n : Nat) : Prop :=
  ∃ digits, (cs = digits ∨ cs = '+' :: digits) ∧ WritesDigits base digits n

/-! ## §2. Reading a digit. -/

/-- A base only limits the values. -/
theorem digitValue?_eq_filter {base : Nat} (hbase : base ≤ 16) (c : Char) :
    digitValue? base c = (digitValue? 16 c).filter (· < base) := by
  unfold digitValue?
  dsimp only
  rw [Option.filter_filter]
  congr 1
  funext d
  rw [Bool.eq_iff_iff, Bool.and_eq_true, decide_eq_true_iff, decide_eq_true_iff]
  omega

/-- The two spellings of a digit by their codes. -/
theorem toNat_digit : ∀ d < 16, (Nat.digitChar d).toNat = (if d < 10 then 48 + d else 87 + d) ∧
    (Nat.digitChar d).toUpper.toNat = (if d < 10 then 48 + d else 55 + d) := by
  decide

theorem isDigit_sixteen_iff {c : Char} {d : Nat} :
    IsDigit 16 c d ↔ d < 16 ∧ (c.toNat = (if d < 10 then 48 + d else 87 + d) ∨
      c.toNat = (if d < 10 then 48 + d else 55 + d)) := by
  unfold IsDigit
  refine and_congr_right fun hd => ?_
  obtain ⟨hlower, hupper⟩ := toNat_digit d hd
  rw [← hlower, ← hupper, Char.toNat_inj, Char.toNat_inj]

theorem digitValue?_sixteen_iff {c : Char} {d : Nat} :
    digitValue? 16 c = some d ↔ IsDigit 16 c d := by
  -- in codes, each of the three ranges of digits is an interval
  have hrange : ∀ low high : Char,
      low ≤ c ∧ c ≤ high ↔ low.toNat ≤ c.toNat ∧ c.toNat ≤ high.toNat := fun low high => Iff.rfl
  rw [isDigit_sixteen_iff]
  unfold digitValue?
  simp only [hrange, Char.reduceToNat]
  rw [Option.filter_eq_some_iff]
  split_ifs <;> simp <;> omega

theorem digitValue?_eq_some_iff {base : Nat} (hbase : base ≤ 16) {c : Char} {d : Nat} :
    digitValue? base c = some d ↔ IsDigit base c d := by
  rw [digitValue?_eq_filter hbase, Option.filter_eq_some_iff, digitValue?_sixteen_iff]
  unfold IsDigit
  rw [decide_eq_true_iff]
  constructor
  · rintro ⟨⟨-, hc⟩, hd⟩
    exact ⟨hd, hc⟩
  · rintro ⟨hd, hc⟩
    exact ⟨⟨by omega, hc⟩, hd⟩

/-! ## §3. Decimal digits. -/

/-- A decimal digit by its code. -/
theorem isDigit_ten {c : Char} {d : Nat} (h : IsDigit 10 c d) :
    c.isDigit = true ∧ c.toNat - 48 = d := by
  obtain ⟨hd, hc⟩ := h
  have hall : ∀ d < 10, (Nat.digitChar d).toUpper = Nat.digitChar d ∧
      (Nat.digitChar d).isDigit = true ∧ (Nat.digitChar d).toNat - 48 = d := by decide
  obtain ⟨hupper, hdigit⟩ := hall d hd
  rw [hupper, or_self] at hc
  rwa [hc]

/-- Decimal digits by their codes. -/
theorem areDigits_ten {cs : List Char} {ds : List Nat} (h : AreDigits 10 cs ds) :
    (∀ c ∈ cs, c.isDigit = true) ∧ cs.map (fun c => c.toNat - 48) = ds := by
  induction h with
  | nil => exact ⟨List.forall_mem_nil _, rfl⟩
  | cons hd _ ih =>
    obtain ⟨hdigit, hvalue⟩ := isDigit_ten hd
    exact ⟨List.forall_mem_cons.2 ⟨hdigit, ih.1⟩, by rw [List.map_cons, hvalue, ih.2]⟩

theorem isDigit_digitChar {base d : Nat} (h : d < base) : IsDigit base (Nat.digitChar d) d :=
  ⟨h, .inl rfl⟩

theorem areDigits_digitChars {base : Nat} {ds : List Nat} (h : ∀ d ∈ ds, d < base) :
    AreDigits base (ds.map Nat.digitChar) ds := by
  rw [AreDigits, List.forall₂_map_left_iff, List.forall₂_same]
  exact fun d hd => isDigit_digitChar (h d hd)

/-- **A number is written by the digits it is printed with.** -/
theorem writesDigits_toDigits {base : Nat} (hbase : 1 < base) (n : Nat) :
    WritesDigits base (Nat.toDigits base n) n := by
  refine ⟨Nat.toDigits_ne_nil, ?_⟩
  induction n using Nat.strongRecOn with
  | ind n ih =>
    rw [Nat.toDigits_eq_if hbase]
    split
    next hlow => exact ⟨[n], .cons (isDigit_digitChar hlow) .nil, Nat.ofDigits_singleton.symm⟩
    next hhigh =>
      -- the last digit is the remainder, the digits in front of it the quotient
      have hpos : 0 < n := by omega
      obtain ⟨ds, hds, hn⟩ := ih (n / base) (Nat.div_lt_self hpos hbase)
      have hlast : IsDigit base (Nat.digitChar (n % base)) (n % base) :=
        isDigit_digitChar (Nat.mod_lt n (by omega))
      refine ⟨ds ++ [n % base], List.rel_append hds (.cons hlast .nil), ?_⟩
      rw [List.reverse_append, List.reverse_singleton, List.singleton_append, Nat.ofDigits_cons,
        ← hn]
      exact (Nat.mod_add_div n base).symm

/-! ## §4. Reading digits in a row. -/

/-- The number that digits make behind a number already read, which counts as a
digit in front of them. -/
def Prolongs (base number : Nat) (cs : List Char) (n : Nat) : Prop :=
  ∃ ds, AreDigits base cs ds ∧ n = Nat.ofDigits base (ds.reverse ++ [number])

namespace Prolongs

variable {base number n : Nat} {c : Char} {cs : List Char}

theorem nil_iff : Prolongs base number [] n ↔ n = number := by
  constructor
  · rintro ⟨ds, hds, hn⟩
    cases hds
    rw [hn]
    exact Nat.ofDigits_singleton
  · intro hn
    exact ⟨[], .nil, by rw [hn]; exact Nat.ofDigits_singleton.symm⟩

/-- Digits only make a number larger. -/
theorem le (hbase : 1 ≤ base) (h : Prolongs base number cs n) : number ≤ n := by
  obtain ⟨ds, -, rfl⟩ := h
  rw [Nat.ofDigits_append, Nat.ofDigits_singleton]
  have hpow : 1 ≤ base ^ ds.reverse.length := Nat.one_le_pow _ _ hbase
  have hle := Nat.le_mul_of_pos_left number hpow
  omega

theorem exists_isDigit (h : Prolongs base number (c :: cs) n) : ∃ d, IsDigit base c d := by
  obtain ⟨ds, hds, -⟩ := h
  obtain ⟨d, -, hd, -⟩ := List.forall₂_cons_left_iff.1 hds
  exact ⟨d, hd⟩

/-- The first digit goes to the number in front of the others. -/
theorem cons_iff (hbase' : base ≤ 16) {d : Nat} (hd : IsDigit base c d) :
    Prolongs base number (c :: cs) n ↔ Prolongs base (number * base + d) cs n := by
  have hnext : ∀ ds : List Nat, Nat.ofDigits base ((d :: ds).reverse ++ [number])
      = Nat.ofDigits base (ds.reverse ++ [number * base + d]) := by
    intro ds
    simp only [List.reverse_cons, List.append_assoc, List.singleton_append, Nat.ofDigits_append,
      Nat.ofDigits_cons, Nat.ofDigits_nil]
    ring
  constructor
  · rintro ⟨ds, hds, hn⟩
    obtain ⟨d', rest, hd', hrest, rfl⟩ := List.forall₂_cons_left_iff.1 hds
    -- a character is the digit of one value only
    rw [← digitValue?_eq_some_iff hbase'] at hd hd'
    obtain rfl : d = d' := Option.some.inj (hd.symm.trans hd')
    exact ⟨rest, hrest, by rw [hn, hnext]⟩
  · rintro ⟨ds, hds, hn⟩
    exact ⟨d :: ds, .cons hd hds, by rw [hn, hnext]⟩

end Prolongs

/-- **Digits are read as the number that they make, if it does not pass the
limit.** -/
theorem readDigits_eq_ok_iff {base limit : Nat} (hbase : 1 ≤ base) (hbase' : base ≤ 16)
    (outOfRange : NumeralError) (cs : List Char) :
    ∀ {number n : Nat}, number ≤ limit →
      (readDigits base limit outOfRange number cs = .ok n ↔
        Prolongs base number cs n ∧ n ≤ limit) := by
  -- the number already read is quantified over: it grows, and never passes the
  -- limit
  induction cs with
  | nil =>
    intro number n hnumber
    rw [readDigits, Except.ok.injEq, Prolongs.nil_iff]
    omega
  | cons c cs ih =>
    intro number n hnumber
    rw [readDigits]
    cases hc : digitValue? base c with
    | none =>
      refine ⟨fun h => (by cases h), fun h => ?_⟩
      obtain ⟨d, hd⟩ := h.1.exists_isDigit
      rw [(digitValue?_eq_some_iff hbase').2 hd] at hc
      cases hc
    | some d =>
      rw [Prolongs.cons_iff hbase' ((digitValue?_eq_some_iff hbase').1 hc)]
      dsimp only
      split
      next hlarge =>
        -- what comes behind cannot make the number smaller again
        refine ⟨fun h => (by cases h), fun h => ?_⟩
        have hle := h.1.le hbase
        omega
      next hfits => exact ih (Nat.le_of_not_lt hfits)

theorem readDigits_zero_eq_ok_iff {base limit : Nat} (hbase : 1 ≤ base) (hbase' : base ≤ 16)
    (outOfRange : NumeralError) {c : Char} {cs : List Char} {n : Nat} :
    readDigits base limit outOfRange 0 (c :: cs) = .ok n ↔
      WritesDigits base (c :: cs) n ∧ n ≤ limit := by
  rw [readDigits_eq_ok_iff hbase hbase' outOfRange _ (Nat.zero_le limit)]
  simp [Prolongs, WritesDigits, Nat.ofDigits_append]

/-! ## §5. Reading with a sign. -/

theorem not_isDigit_sign {base : Nat} (hbase : base ≤ 16) {c : Char} (hc : c = '+' ∨ c = '-')
    (d : Nat) : ¬ IsDigit base c d := by
  rw [← digitValue?_eq_some_iff hbase, digitValue?_eq_filter hbase]
  rcases hc with rfl | rfl <;> exact nofun

/-- A sign begins no digits. -/
theorem not_writesDigits_sign {base : Nat} (hbase : base ≤ 16) {c : Char} (hc : c = '+' ∨ c = '-')
    (cs : List Char) (n : Nat) : ¬ WritesDigits base (c :: cs) n := by
  rintro ⟨-, ds, hds, -⟩
  obtain ⟨d, -, hd, -⟩ := List.forall₂_cons_left_iff.1 hds
  exact not_isDigit_sign hbase hc d hd

theorem not_writesDigits_nil (base n : Nat) : ¬ WritesDigits base [] n := fun h => h.1 rfl

/-- Behind a plus sign stand digits. -/
theorem writesUnsigned_plus_iff {base : Nat} (hbase : base ≤ 16) {cs : List Char} {n : Nat} :
    WritesUnsigned base ('+' :: cs) n ↔ WritesDigits base cs n := by
  constructor
  · rintro ⟨digits, rfl | hcs, h⟩
    · exact absurd h (not_writesDigits_sign hbase (.inl rfl) cs n)
    · rwa [(List.cons.inj hcs).2]
  · exact fun h => ⟨cs, .inr rfl, h⟩

/-- What does not begin with a plus sign is digits alone. -/
theorem writesUnsigned_iff {base : Nat} {cs : List Char} {n : Nat} (h : ∀ rest, cs ≠ '+' :: rest) :
    WritesUnsigned base cs n ↔ WritesDigits base cs n := by
  constructor
  · rintro ⟨digits, rfl | hcs, hdigits⟩
    · exact hdigits
    · exact absurd hcs (h digits)
  · exact fun h => ⟨cs, .inl rfl, h⟩

/-- **A number is read exactly from what writes it, if it does not pass the
limit.** -/
theorem readUnsigned_eq_ok_iff {base limit : Nat} (hbase : 1 ≤ base) (hbase' : base ≤ 16)
    {cs : List Char} {n : Nat} :
    readUnsigned base limit cs = .ok n ↔ WritesUnsigned base cs n ∧ n ≤ limit := by
  unfold readUnsigned
  split
  next =>
    rw [writesUnsigned_iff (by simp)]
    simp [not_writesDigits_nil]
  next =>
    rw [writesUnsigned_plus_iff hbase']
    simp [not_writesDigits_nil]
  next =>
    rw [writesUnsigned_iff (by simp)]
    simp [not_writesDigits_sign hbase' (.inr rfl)]
  next digits hne =>
    rw [writesUnsigned_plus_iff hbase']
    cases digits with
    | nil => exact absurd rfl hne
    | cons c cs => exact readDigits_zero_eq_ok_iff hbase hbase' .tooLarge
  next hnil _ _ hplus =>
    rw [writesUnsigned_iff hplus]
    cases cs with
    | nil => exact absurd rfl hnil
    | cons c cs => exact readDigits_zero_eq_ok_iff hbase hbase' .tooLarge

/-- **A 32-bit number is read exactly from what writes it.** -/
theorem readU32_eq_ok_iff {base : Nat} (hbase : 1 ≤ base) (hbase' : base ≤ 16) {cs : List Char}
    {n : UInt32} : readU32 base cs = .ok n ↔ WritesUnsigned base cs n.toNat := by
  unfold readU32
  rw [Except.map_eq_ok_iff]
  constructor
  · rintro ⟨n, hread, rfl⟩
    obtain ⟨hwrites, hlimit⟩ := (readUnsigned_eq_ok_iff hbase hbase').1 hread
    rwa [UInt32.toNat_ofNat_of_lt' (Nat.lt_of_le_pred (by decide) hlimit)]
  · intro h
    refine ⟨n.toNat, (readUnsigned_eq_ok_iff hbase hbase').2 ⟨h, ?_⟩, UInt32.ofNat_toNat⟩
    exact Nat.le_pred_of_lt n.toNat_lt_size

end MerkleAirdrop.Numeral
