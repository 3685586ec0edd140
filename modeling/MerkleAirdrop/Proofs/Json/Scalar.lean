/-
  MerkleAirdrop.Proofs.Json.Scalar
  ────────────────────────────────
  **TEXTS AND NUMBERS ARE READ AS THEY ARE SPELLED.**

      Json.decodeCodes_eq_some_iff   codes stand for the characters that they
                                     are decoded to
      Json.SpellsText.reads          every spelling of a text
      Json.SpellsNumber.reads        every spelling of a number
-/
import MerkleAirdrop.Proofs.Json.Reader

namespace MerkleAirdrop.Json

open Numeral (AreDigits WritesDigits)

/-! ## §1. One code. -/

theorem readCodes_escape {e : Char} {code : Nat} (hu : e ≠ 'u') (h : escapeValue? e = some code)
    (rest : List Char) :
    readCodes ('\\' :: e :: rest) = (readCodes rest).map fun p => (code :: p.1, p.2) := by
  rw [readCodes.eq_4 _ _ fun _ _ _ _ _ he _ => hu he, h]
  cases readCodes rest <;> rfl

theorem readCodes_unicode {a b c d : Char} {code : Nat} (h : hexValue? a b c d = some code)
    (rest : List Char) :
    readCodes ('\\' :: 'u' :: a :: b :: c :: d :: rest)
      = (readCodes rest).map fun p => (code :: p.1, p.2) := by
  rw [readCodes, h]
  cases readCodes rest <;> rfl

theorem readCodes_plain {c : Char} (hquote : c ≠ '"') (hslash : c ≠ '\\') (hc : 32 ≤ c.toNat)
    (rest : List Char) :
    readCodes (c :: rest) = (readCodes rest).map fun p => (c.toNat :: p.1, p.2) := by
  rw [readCodes.eq_5 _ _ hquote (fun _ _ _ _ _ h _ => hslash h) fun _ _ h _ => hslash h,
    if_neg (by simp [hslash, hc])]
  cases readCodes rest <;> rfl

theorem escapeValue?_of_mem {e : Char} {code : Nat} (h : (e, code) ∈ escapeLetters) :
    e ≠ 'u' ∧ escapeValue? e = some code ∧ code < 0x110000 := by
  have hall : ∀ p ∈ escapeLetters, p.1 ≠ 'u' ∧ escapeValue? p.1 = some p.2 ∧ p.2 < 0x110000 := by
    decide
  exact hall (e, code) h

/-- Four hexadecimal digits are read as the code that they write. -/
theorem hexValue?_of_writesDigits {cs : List Char} {code : Nat} (hlength : cs.length = 4)
    (h : WritesDigits 16 cs code) :
    (∃ a b c d, cs = [a, b, c, d] ∧ hexValue? a b c d = some code) ∧ code < 0x110000 := by
  obtain ⟨-, ds, hds, rfl⟩ := h
  unfold AreDigits at hds
  match cs, hlength with
  | [a, b, c, d], _ =>
    obtain ⟨w, _, hw, hxyz, rfl⟩ := List.forall₂_cons_left_iff.1 hds
    obtain ⟨x, _, hx, hyz, rfl⟩ := List.forall₂_cons_left_iff.1 hxyz
    obtain ⟨y, _, hy, hlast, rfl⟩ := List.forall₂_cons_left_iff.1 hyz
    obtain ⟨z, _, hz, hnil, rfl⟩ := List.forall₂_cons_left_iff.1 hlast
    rw [List.forall₂_nil_left_iff.1 hnil]
    have hvalue : Nat.ofDigits 16 [w, x, y, z].reverse = ((w * 16 + x) * 16 + y) * 16 + z := by
      simp only [List.reverse_cons, List.reverse_nil, List.nil_append, List.cons_append,
        Nat.ofDigits_cons, Nat.ofDigits_nil]
      omega
    refine ⟨⟨a, b, c, d, rfl, ?_⟩, ?_⟩
    · rw [hvalue, hexValue?, Numeral.digitValue?_sixteen_iff.2 hw,
        Numeral.digitValue?_sixteen_iff.2 hx, Numeral.digitValue?_sixteen_iff.2 hy,
        Numeral.digitValue?_sixteen_iff.2 hz]
      rfl
    · have := hw.1
      have := hx.1
      have := hy.1
      have := hz.1
      rw [hvalue]
      omega

namespace SpellsCode

variable {cs : List Char} {code : Nat}

/-- **A code is read from what spells it.** -/
theorem readCodes_append (h : SpellsCode cs code) (rest : List Char) :
    readCodes (cs ++ rest) = (readCodes rest).map fun p => (code :: p.1, p.2) := by
  cases h with
  | plain hquote hslash hc => exact readCodes_plain hquote hslash hc rest
  | letter hmem =>
    obtain ⟨hu, hvalue, -⟩ := escapeValue?_of_mem hmem
    exact readCodes_escape hu hvalue rest
  | digits hlength hdigits =>
    obtain ⟨⟨a, b, c, d, rfl, hvalue⟩, -⟩ := hexValue?_of_writesDigits hlength hdigits
    exact readCodes_unicode hvalue rest

/-- What can be spelled is in the range of characters. -/
theorem lt (h : SpellsCode cs code) : code < 0x110000 := by
  cases h with
  | @plain c _ _ _ =>
    have hvalid : c.toNat < 0xD800 ∨ 0xDFFF < c.toNat ∧ c.toNat < 0x110000 := c.valid
    omega
  | letter hmem => exact (escapeValue?_of_mem hmem).2.2
  | digits hlength hdigits => exact (hexValue?_of_writesDigits hlength hdigits).2

end SpellsCode

namespace SpellsCodes

variable {cs : List Char} {codes : List Nat}

theorem readCodes_append (h : SpellsCodes cs codes) (rest : List Char) :
    readCodes (cs ++ '"' :: rest) = some (codes, rest) := by
  induction h with
  | nil => rfl
  | cons hcode _ ih =>
    rw [List.append_assoc, hcode.readCodes_append, ih]
    rfl

theorem lt (h : SpellsCodes cs codes) : ∀ code ∈ codes, code < 0x110000 := by
  induction h with
  | nil => exact List.forall_mem_nil _
  | cons hcode _ ih => exact List.forall_mem_cons.2 ⟨hcode.lt, ih⟩

end SpellsCodes

/-! ## §2. Texts. -/

/-- No character is half of a pair. -/
theorem not_half (c : Char) : isHigh c.toNat = false ∧ isLow c.toNat = false := by
  have hvalid : c.toNat < 0xD800 ∨ 0xDFFF < c.toNat ∧ c.toNat < 0x110000 := c.valid
  simp only [isHigh, isLow, Bool.and_eq_false_iff, decide_eq_false_iff_not]
  omega

/-- What is no half of a pair, and in range, is the code of a character. -/
theorem toNat_ofNat_of_not_half {code : Nat} (hlt : code < 0x110000) (hhigh : isHigh code = false)
    (hlow : isLow code = false) : (Char.ofNat code).toNat = code := by
  simp only [isHigh, isLow, Bool.and_eq_false_iff, decide_eq_false_iff_not] at hhigh hlow
  have hvalid : code.isValidChar := by
    unfold Nat.isValidChar
    omega
  rw [Char.ofNat, dif_pos hvalid]
  rfl

/-- The characters that codes stand for are decoded from them. -/
theorem StandsFor.decodeCodes_eq {codes : List Nat} {cs : List Char} (h : StandsFor codes cs) :
    decodeCodes codes = some cs := by
  induction h with
  | nil => rfl
  | @one codes cs c h ih =>
    obtain ⟨hhigh, hlow⟩ := not_half c
    cases codes with
    | nil =>
      cases h
      rw [decodeCodes, hhigh, hlow, Char.ofNat_toNat]
      rfl
    | cons code codes =>
      rw [decodeCodes, hhigh, hlow, ih, Char.ofNat_toNat]
      rfl
  | @pair high low codes c cs hhigh hlow hc _ ih =>
    have hpair : (isHigh high && isLow low) = true := by
      simp only [isHigh, isLow, Bool.and_eq_true, decide_eq_true_eq]
      exact ⟨hhigh, hlow⟩
    rw [decodeCodes, if_pos hpair, ih, ← hc, Char.ofNat_toNat]
    rfl

/-- Codes in range stand for the characters that are decoded from them. -/
theorem standsFor_of_decodeCodes : ∀ {codes : List Nat} {cs : List Char},
    (∀ code ∈ codes, code < 0x110000) → decodeCodes codes = some cs → StandsFor codes cs := by
  intro codes
  induction codes using decodeCodes.induct with
  | case1 =>
    intro cs _ h
    cases h
    exact .nil
  | case2 high low rest hpair ih =>
    -- two halves: together they make a code beyond four digits, in range
    intro cs hlt h
    rw [List.forall_mem_cons, List.forall_mem_cons] at hlt
    rw [decodeCodes, if_pos hpair] at h
    obtain ⟨chars, hchars, hcs⟩ := Option.bind_eq_some_iff.1 h
    cases hcs
    simp only [isHigh, isLow, Bool.and_eq_true, decide_eq_true_eq] at hpair
    have hvalid : (0x10000 + (high - 0xD800) * 0x400 + (low - 0xDC00)).isValidChar := by
      unfold Nat.isValidChar
      omega
    refine .pair hpair.1 hpair.2 ?_ (ih hlt.2.2 hchars)
    rw [Char.ofNat, dif_pos hvalid]
    rfl
  | case3 high low rest hpair halone =>
    -- a half without the other
    intro cs _ h
    rw [decodeCodes, if_neg hpair, if_pos halone] at h
    cases h
  | case4 high low rest hpair halone ih =>
    -- no half: the code of a character, and what stands behind it by itself
    intro cs hlt h
    rw [List.forall_mem_cons] at hlt
    rw [decodeCodes, if_neg hpair, if_neg halone] at h
    obtain ⟨chars, hchars, hcs⟩ := Option.bind_eq_some_iff.1 h
    cases hcs
    rw [Bool.or_eq_true, not_or, Bool.not_eq_true, Bool.not_eq_true] at halone
    have hone := StandsFor.one (Char.ofNat high) (ih hlt.2 hchars)
    rwa [toNat_ofNat_of_not_half hlt.1 halone.1 halone.2] at hone
  | case5 code halone =>
    intro cs _ h
    rw [decodeCodes, if_pos halone] at h
    cases h
  | case6 code halone =>
    intro cs hlt h
    rw [decodeCodes, if_neg halone] at h
    cases h
    rw [Bool.or_eq_true, not_or, Bool.not_eq_true, Bool.not_eq_true] at halone
    have hone := StandsFor.one (Char.ofNat code) .nil
    rwa [toNat_ofNat_of_not_half (hlt code List.mem_cons_self) halone.1 halone.2] at hone

theorem decodeCodes_eq_some_iff {codes : List Nat} (hlt : ∀ code ∈ codes, code < 0x110000)
    {cs : List Char} : decodeCodes codes = some cs ↔ StandsFor codes cs :=
  ⟨standsFor_of_decodeCodes hlt, StandsFor.decodeCodes_eq⟩

/-- **Every spelling of a text is read as the text.** -/
theorem SpellsText.reads {cs : List Char} {text : Option String} (h : SpellsText cs text) :
    ReadsText cs text := by
  intro rest
  unfold readText
  cases text with
  | some s =>
    obtain ⟨codes, hcodes, hstands⟩ := h
    rw [hcodes.readCodes_append]
    show some ((decodeCodes codes).map String.ofList, rest) = _
    rw [hstands.decodeCodes_eq, Option.map_some, String.ofList_toList]
  | none =>
    obtain ⟨codes, hcodes, hstands⟩ := h
    -- codes that stand for no characters are decoded to none
    have hnone : decodeCodes codes = none :=
      Option.eq_none_iff_forall_ne_some.2 fun chars hchars =>
        hstands chars ((decodeCodes_eq_some_iff hcodes.lt).1 hchars)
    rw [hcodes.readCodes_append]
    show some ((decodeCodes codes).map String.ofList, rest) = _
    rw [hnone]
    rfl

/-! ## §3. Digits. -/

/-- No digit stands in front. -/
def NoDigit (rest : List Char) : Prop := ∀ c, rest.head? = some c → c.isDigit = false

theorem Stops.noDigit {rest : List Char} (h : Stops rest) : NoDigit rest :=
  fun c hc => (h c hc).1

theorem noDigit_cons {c : Char} (h : c.isDigit = false) (cs : List Char) : NoDigit (c :: cs) := by
  intro c' hc'
  rw [← Option.some.inj hc', h]

theorem afterDigits_append {ds rest : List Char} (hds : ∀ c ∈ ds, c.isDigit = true)
    (hrest : NoDigit rest) : afterDigits (ds ++ rest) = rest := by
  unfold afterDigits
  rw [List.dropWhile_append_of_pos hds]
  cases rest with
  | nil => rfl
  | cons c rest => rw [List.dropWhile_cons_of_neg (by rw [hrest c rfl]; decide)]

theorem digitsOf_append {ds rest : List Char} (hds : ∀ c ∈ ds, c.isDigit = true)
    (hrest : NoDigit rest) : digitsOf (ds ++ rest) = ds.map fun c => c.toNat - 48 := by
  unfold digitsOf
  rw [List.takeWhile_append_of_pos hds]
  cases rest with
  | nil => rw [List.takeWhile_nil, List.append_nil]
  | cons c rest =>
    rw [List.takeWhile_cons_of_neg (by rw [hrest c rfl]; decide), List.append_nil]

theorem ofDigits_eq (ds : List Nat) : ofDigits ds = Nat.ofDigits 10 ds.reverse := by
  unfold ofDigits
  rw [Nat.ofDigits_eq_foldr, List.foldr_reverse]
  congr 1
  funext n d
  rw [Nat.cast_id, Nat.mul_comm, Nat.add_comm]

/-- Digits are read as their values, up to what is no digit. -/
theorem digitsOf_of_areDigits {cs rest : List Char} {ds : List Nat} (h : AreDigits 10 cs ds)
    (hrest : NoDigit rest) : digitsOf (cs ++ rest) = ds ∧ afterDigits (cs ++ rest) = rest := by
  obtain ⟨hdigits, hvalues⟩ := Numeral.areDigits_ten h
  exact ⟨by rw [digitsOf_append hdigits hrest, hvalues], afterDigits_append hdigits hrest⟩

/-- Digits are read as the number that they write. -/
theorem digitsOf_of_writesDigits {cs rest : List Char} {n : Nat} (h : WritesDigits 10 cs n)
    (hrest : NoDigit rest) : (digitsOf (cs ++ rest)).isEmpty = false ∧
      ofDigits (digitsOf (cs ++ rest)) = n ∧ afterDigits (cs ++ rest) = rest := by
  obtain ⟨hne, ds, hds, rfl⟩ := h
  obtain ⟨hdigits, hafter⟩ := digitsOf_of_areDigits hds hrest
  refine ⟨?_, by rw [hdigits, ofDigits_eq], hafter⟩
  rw [hdigits, List.isEmpty_eq_false_iff]
  rintro rfl
  exact hne (List.forall₂_nil_right_iff.1 hds)

/-- What writes a number begins with a digit. -/
theorem exists_cons_of_writesDigits {cs : List Char} {n : Nat} (h : WritesDigits 10 cs n) :
    ∃ c rest, cs = c :: rest ∧ c.isDigit = true := by
  obtain ⟨hne, ds, hds, -⟩ := h
  obtain ⟨c, rest, rfl⟩ := List.exists_cons_of_ne_nil hne
  exact ⟨c, rest, rfl, (Numeral.areDigits_ten hds).1 c List.mem_cons_self⟩

/-! ## §4. The parts of a number. -/

theorem SpellsWhole.readWhole_append {cs rest : List Char} {n : Nat} (h : SpellsWhole cs n)
    (hrest : NoDigit rest) : readWhole (cs ++ rest) = some (n, rest) := by
  obtain ⟨hwrites, hzero⟩ := h
  obtain ⟨hempty, hvalue, hafter⟩ := digitsOf_of_writesDigits hwrites hrest
  obtain ⟨c, cs, rfl, -⟩ := exists_cons_of_writesDigits hwrites
  by_cases hc : c = '0'
  · -- a zero stands alone
    subst hc
    obtain rfl : cs = [] := (List.cons.inj (hzero rfl)).2
    have hn : digitsOf ('0' :: rest) = [0] := by
      show digitsOf (['0'] ++ rest) = _
      rw [digitsOf_append (List.forall_mem_singleton.2 rfl) hrest]
      rfl
    rw [List.singleton_append, hn] at hvalue
    rw [← hvalue]
    rfl
  · unfold readWhole
    split
    next h => exact absurd (List.cons.inj h).1 hc
    next => rw [hempty, hvalue, hafter]; rfl

theorem SpellsFraction.readFraction_append {cs rest : List Char} {ds : List Nat}
    (h : SpellsFraction cs ds) (hrest : NoDigit rest) (hpoint : rest.head? ≠ some '.') :
    readFraction (cs ++ rest) = some (ds, rest) := by
  cases h with
  | none =>
    rw [List.nil_append]
    unfold readFraction
    split
    next => exact absurd rfl hpoint
    next => rfl
  | point hne hdigits =>
    obtain ⟨hvalues, hafter⟩ := digitsOf_of_areDigits hdigits hrest
    rw [List.cons_append, readFraction, hvalues, hafter, if_neg (by simpa using hne)]

theorem power_append {cs rest : List Char} {n : Nat} (signed : Nat → Int)
    (h : WritesDigits 10 cs n) (hrest : NoDigit rest) :
    readExponent.power signed (cs ++ rest) = some (some (signed n), rest) := by
  obtain ⟨hempty, hvalue, hafter⟩ := digitsOf_of_writesDigits h hrest
  unfold readExponent.power
  rw [hempty, hvalue, hafter]
  rfl

theorem readExponent_digit {mark c : Char} (hmark : IsMark mark) (hc : c.isDigit = true)
    (cs : List Char) :
    readExponent (mark :: c :: cs) = readExponent.power (fun n => (n : Int)) (c :: cs) := by
  unfold readExponent
  split
  next h => cases h; cases hc
  next h => cases h; cases hc
  next h => cases h; cases hc
  next h => cases h; cases hc
  next h => rw [(List.cons.inj h).2]
  next h => rw [(List.cons.inj h).2]
  next hlower hupper =>
    rcases hmark with rfl | rfl
    · exact absurd rfl (hlower _)
    · exact absurd rfl (hupper _)

theorem readExponent_of_stops {rest : List Char} (h : Stops rest) :
    readExponent rest = some (none, rest) := by
  unfold readExponent
  split
  case h_7 => rfl
  -- the other six begin with the mark of an exponent
  all_goals
    first
    | exact absurd rfl (h _ rfl).2.2.1
    | exact absurd rfl (h _ rfl).2.2.2

theorem SpellsExponent.readExponent_append {cs rest : List Char} {e : Option Int}
    (h : SpellsExponent cs e) (hrest : Stops rest) :
    readExponent (cs ++ rest) = some (e, rest) := by
  cases h with
  | none => exact readExponent_of_stops hrest
  | @bare mark cs n hmark hdigits =>
    have hpower := power_append (fun n => (n : Int)) hdigits hrest.noDigit
    obtain ⟨c, cs, rfl, hc⟩ := exists_cons_of_writesDigits hdigits
    exact (readExponent_digit hmark hc _).trans hpower
  | plus hmark hdigits =>
    have hpower := power_append (fun n => (n : Int)) hdigits hrest.noDigit
    rcases hmark with rfl | rfl <;> exact hpower
  | minus hmark hdigits =>
    have hpower := power_append (fun n => -(n : Int)) hdigits hrest.noDigit
    rcases hmark with rfl | rfl <;> exact hpower

/-- An exponent prolongs neither the digits nor the point in front of it. -/
theorem SpellsExponent.noDigit_append {cs rest : List Char} {e : Option Int}
    (h : SpellsExponent cs e) (hrest : Stops rest) :
    NoDigit (cs ++ rest) ∧ (cs ++ rest).head? ≠ some '.' := by
  have hmarked : ∀ {mark : Char} (cs : List Char), IsMark mark →
      NoDigit (mark :: cs) ∧ (mark :: cs).head? ≠ some '.' := by
    intro mark cs hmark
    rcases hmark with rfl | rfl
    · exact ⟨noDigit_cons rfl cs, fun h => absurd (Option.some.inj h) (by decide)⟩
    · exact ⟨noDigit_cons rfl cs, fun h => absurd (Option.some.inj h) (by decide)⟩
  cases h with
  | none => exact ⟨hrest.noDigit, fun h => (hrest _ h).2.1 rfl⟩
  | bare hmark _ => exact hmarked _ hmark
  | plus hmark _ => exact hmarked _ hmark
  | minus hmark _ => exact hmarked _ hmark

theorem SpellsFraction.noDigit_append {cs rest : List Char} {ds : List Nat}
    (h : SpellsFraction cs ds) (hrest : NoDigit rest) : NoDigit (cs ++ rest) := by
  cases h with
  | none => exact hrest
  | point _ _ => exact noDigit_cons rfl _

/-! ## §5. Numbers. -/

/-- What spells a number begins with its sign or with a digit. -/
theorem SpellsNumber.exists_cons {cs : List Char} {n : JsonNumber} (h : SpellsNumber cs n) :
    ∃ c rest, cs = c :: rest ∧ (c = '-' ∨ c.isDigit = true) := by
  cases h with
  | mk negative hwhole _ _ =>
    obtain ⟨c, cs, rfl, hc⟩ := exists_cons_of_writesDigits hwhole.1
    cases negative with
    | true => exact ⟨_, _, rfl, .inl rfl⟩
    | false => exact ⟨_, _, rfl, .inr hc⟩

theorem SpellsNumber.readNumber_append {cs rest : List Char} {n : JsonNumber}
    (h : SpellsNumber cs n) (hrest : Stops rest) : readNumber (cs ++ rest) = some (n, rest) := by
  cases h with
  | @mk negative ws fs es whole fraction exponent hwhole hfraction hexponent =>
    obtain ⟨hdigit, hpoint⟩ := hexponent.noDigit_append hrest
    have hsign : readSign ((if negative then ['-'] else []) ++ (ws ++ (fs ++ es)) ++ rest)
        = (negative, ws ++ (fs ++ (es ++ rest))) := by
      obtain ⟨c, cs, rfl, hc⟩ := exists_cons_of_writesDigits hwhole.1
      simp only [List.append_assoc]
      cases negative with
      | true => rfl
      | false =>
        -- a digit is no sign
        show readSign (c :: (cs ++ _)) = _
        unfold readSign
        split
        next h =>
          rw [(List.cons.inj h).1] at hc
          cases hc
        next => rfl
    -- one part behind the other, each up to what cannot prolong it
    unfold readNumber
    simp only [hsign, hwhole.readWhole_append (hfraction.noDigit_append hdigit),
      hfraction.readFraction_append hdigit hpoint, hexponent.readExponent_append hrest, bind,
      Option.bind]
    rfl

/-- **In front of what stops it, every spelling of a number is read as the
number.** -/
theorem SpellsNumber.reads {cs : List Char} {n : JsonNumber} (h : SpellsNumber cs n) :
    Reads cs (.num n) := by
  have hread : ∀ rest, Stops rest → readNumber (cs ++ rest) = some (n, rest) :=
    fun _ hrest => h.readNumber_append hrest
  obtain ⟨c, cs, rfl, hc⟩ := h.exists_cons
  exact Reads.number hc hread

end MerkleAirdrop.Json
