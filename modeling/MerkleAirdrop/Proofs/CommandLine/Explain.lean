/-
  MerkleAirdrop.Proofs.CommandLine.Explain
  ────────────────────────────────────────
  **WHICH TEXTS ARE ERROR CODES, AND WHAT IS TOLD OF THEM.**

      readErrorCode_eq_ok_iff   what writes a code is read as the code
      explainError_outcome      for every text, whether it is told of, fails
                                as a code of no error, or is refused as no
                                code at all

  A code is looked up by its distance from the first one; the catalog goes in
  step with the errors (`ProgramError.lookup?_eq_some_iff`), so what is told is
  the entry that bears the code.
-/
import MerkleAirdrop.Proofs.CommandLine.RoundTrip
import MerkleAirdrop.Proofs.Digits

namespace MerkleAirdrop

/-! ## §1. The codes of the catalog. -/

namespace ProgramError

/-- The codes in the catalog run on without a gap. -/
theorem exists_mem_catalog_iff {code : Nat} :
    (∃ d ∈ catalog, d.code = code) ↔ 6000 ≤ code ∧ code ≤ 6011 := by
  have hcodes : catalog.map ErrorDescriptor.code = List.range' 6000 12 := by decide
  rw [← List.mem_map, hcodes, List.mem_range'_1]
  omega

/-- No two entries bear one code. -/
theorem eq_of_code_eq {d d' : ErrorDescriptor} (hd : d ∈ catalog) (hd' : d' ∈ catalog)
    (h : d'.code = d.code) : d' = d :=
  Option.some.inj ((lookup?_eq_some_iff.2 ⟨hd', h⟩).symm.trans (lookup?_eq_some_iff.2 ⟨hd, rfl⟩))

end ProgramError

namespace CommandLine

/-! ## §2. Codes in text. -/

/-- The characters write an error code: a number in decimal, or `0x` and a
number in hexadecimal.  Either number may have a plus sign. -/
def WritesCode (cs : List Char) (v : Nat) : Prop :=
  Numeral.WritesUnsigned 10 cs v ∨
    ∃ digits, cs = '0' :: 'x' :: digits ∧ Numeral.WritesUnsigned 16 digits v

/-- The mark of hexadecimal is no decimal number. -/
theorem not_writesUnsigned_mark (digits : List Char) (v : Nat) :
    ¬ Numeral.WritesUnsigned 10 ('0' :: 'x' :: digits) v := by
  rw [Numeral.writesUnsigned_iff (by simp)]
  rintro ⟨-, ds, hds, -⟩
  obtain ⟨_, rest, -, hrest, -⟩ := List.forall₂_cons_left_iff.1 hds
  obtain ⟨d, -, hd, -⟩ := List.forall₂_cons_left_iff.1 hrest
  have hx := (Numeral.digitValue?_eq_some_iff (by decide)).2 hd
  exact absurd hx (by rw [show Numeral.digitValue? 10 'x' = none by decide]; exact nofun)

theorem readErrorCode_eq_ok_iff {text : String} {code : UInt32} :
    readErrorCode text = .ok code ↔ WritesCode text.toList code.toNat := by
  unfold readErrorCode WritesCode
  split
  next digits htext =>
    -- behind the mark, decimal is ruled out by the `x`
    rw [htext, Numeral.readU32_eq_ok_iff (by decide) (by decide)]
    constructor
    · exact fun h => .inr ⟨digits, rfl, h⟩
    · rintro (h | ⟨digits', hdigits, h⟩)
      · exact absurd h (not_writesUnsigned_mark digits code.toNat)
      · cases hdigits
        exact h
  next htext =>
    rw [Numeral.readU32_eq_ok_iff (by decide) (by decide)]
    constructor
    · exact .inl
    · rintro (h | ⟨digits, hdigits, -⟩)
      · exact h
      · exact absurd hdigits (htext digits)

/-- Every number of 32 bits is a code. -/
theorem exists_code_of_lt {v : Nat} (h : v < 2 ^ 32) : ∃ code : UInt32, v = code.toNat :=
  ⟨UInt32.ofNat v, (UInt32.toNat_ofNat_of_lt' h).symm⟩

/-! ## §3. The command and its flag. -/

/-- The flag of the command. -/
def codeFlag : Flag := .single "code" .errorCode

theorem read_codeFlag (text : String) :
    codeFlag.read text = ((readErrorCode text).mapError fun e =>
      UsageError.invalidValue s!"invalid error code {text}: {e.message}").map
        fun code => [.errorCode code] := by
  show List.mapM (fun piece => (ValueKind.errorCode.read piece).mapError UsageError.invalidValue)
    [text] = _
  rw [List.mapM_cons, List.mapM_nil, ValueKind.read]
  cases readErrorCode text <;> rfl

/-- The command, as the table has it. -/
def explainError : Subcommand where
  name := "explain-error"
  flags := [codeFlag]
  build := fun a => .explainError <$> a.errorCode? "code"

theorem find?_explainError :
    subcommands.find? (·.name == "explain-error") = some explainError := rfl

/-- A text behind the flag is read at once, and nothing is taken from the
environment. -/
theorem parse_explainError (environment : List (String × String)) (text : String) :
    explainError.parse environment ["--code=" ++ text]
      = ((readErrorCode text).mapError fun e =>
          UsageError.invalidValue s!"invalid error code {text}: {e.message}").map
            Command.explainError := by
  have hlawful :=
    Subcommand.lawful_level explainError (List.mem_of_find?_eq_some find?_explainError)
  have hgive : Assignment.give [] codeFlag text
      = (codeFlag.read text).map fun values => values.map (codeFlag.name, ·) := rfl
  -- behind an equals sign nothing waits: the text is read before the words end
  show Subcommand.parse explainError environment ["--" ++ codeFlag.name ++ "=" ++ text] = _
  unfold Subcommand.parse
  rw [Level.scan_attached hlawful rfl (show Progress.initial.settle = .ok [] from rfl), hgive,
    read_codeFlag]
  cases readErrorCode text with
  | error e => rfl
  | ok code => rfl

/-! ## §4. Runs. -/

section

variable {environment : List (String × String)} {url? : Option String}
  {program? : Option Address} {top : List String} (network : Network)
  (htop : Invocation.topLevel.Gives environment top (Invocation.globals url? program?))

include htop

/-- A code is looked up. -/
theorem run_of_code {text : String} {code : UInt32} (h : readErrorCode text = .ok code) :
    run network environment (top ++ ["explain-error", "--code=" ++ text])
      = .ofResult (printExplained code) := by
  have hparse := Invocation.parse_command find?_explainError htop ["--code=" ++ text]
  rw [parse_explainError, h] at hparse
  exact run_of_parse hparse network

/-- What is no code is refused, with the reason. -/
theorem run_of_no_code {text : String} {e : NumeralError} (h : readErrorCode text = .error e) :
    run network environment (top ++ ["explain-error", "--code=" ++ text])
      = .refused (.invalidValue s!"invalid error code {text}: {e.message}") := by
  have hparse := Invocation.parse_command find?_explainError htop ["--code=" ++ text]
  rw [parse_explainError, h] at hparse
  exact run_of_refusal hparse network

/-- **A code of the catalog is told of with its entry**, the only one that bears
it. -/
theorem exists_told {text : String} {v : Nat} (hwrites : WritesCode text.toList v)
    (hlow : 6000 ≤ v) (hhigh : v ≤ 6011) :
    ∃ d ∈ ProgramError.catalog, d.code = v ∧
      (∀ d' ∈ ProgramError.catalog, d'.code = v → d' = d) ∧
      run network environment (top ++ ["explain-error", "--code=" ++ text])
        = .printed (toString v ++ ": " ++ d.message ++ "\n") := by
  obtain ⟨d, hd, rfl⟩ := ProgramError.exists_mem_catalog_iff.2 ⟨hlow, hhigh⟩
  refine ⟨d, hd, rfl, fun d' hd' => ProgramError.eq_of_code_eq hd hd', ?_⟩
  -- the code fits into 32 bits, so it is read, and its entry is found
  obtain ⟨code, hcode⟩ := exists_code_of_lt (show d.code < 2 ^ 32 by omega)
  have hread : readErrorCode text = .ok code := readErrorCode_eq_ok_iff.2 (hcode ▸ hwrites)
  rw [run_of_code network htop hread]
  unfold printExplained
  rw [ProgramError.lookup?_eq_some_iff.2 ⟨hd, hcode⟩]
  rfl

/-- **Another number of 32 bits is named in the failure.** -/
theorem run_of_foreign {text : String} {v : Nat} (hwrites : WritesCode text.toList v)
    (hv : v < 2 ^ 32) (hrange : ¬ (6000 ≤ v ∧ v ≤ 6011)) :
    run network environment (top ++ ["explain-error", "--code=" ++ text])
      = .failed (.text s!"{v} is not a merkle distributor error code") := by
  -- an entry for the code would put it in the range
  obtain ⟨code, rfl⟩ := exists_code_of_lt hv
  have hlookup : ProgramError.lookup? code.toNat = none := by
    refine Option.eq_none_iff_forall_ne_some.2 fun d hd => ?_
    have hmem := ProgramError.lookup?_eq_some_iff.1 hd
    exact hrange (ProgramError.exists_mem_catalog_iff.1 ⟨d, hmem⟩)
  rw [run_of_code network htop (readErrorCode_eq_ok_iff.2 hwrites)]
  unfold printExplained
  rw [hlookup]
  rfl

/-- **What writes no number of 32 bits is refused for the value of the flag.** -/
theorem exists_refusal {text : String} (hlarge : ∀ v, WritesCode text.toList v → 2 ^ 32 ≤ v) :
    ∃ e : NumeralError, run network environment (top ++ ["explain-error", "--code=" ++ text])
      = .refused (.invalidValue s!"invalid error code {text}: {e.message}") := by
  cases hread : readErrorCode text with
  | error e => exact ⟨e, run_of_no_code network htop hread⟩
  | ok code =>
    have hle := hlarge code.toNat (readErrorCode_eq_ok_iff.1 hread)
    exact absurd hle (Nat.not_le.2 code.toNat_lt)

/-- **Only a code of the catalog is told of.** -/
theorem exists_printed_iff {text : String} :
    (∃ line, run network environment (top ++ ["explain-error", "--code=" ++ text])
      = .printed line) ↔ ∃ v, WritesCode text.toList v ∧ 6000 ≤ v ∧ v ≤ 6011 := by
  constructor
  · rintro ⟨line, hline⟩
    cases hread : readErrorCode text with
    | error e =>
      rw [run_of_no_code network htop hread] at hline
      cases hline
    | ok code =>
      have hwrites := readErrorCode_eq_ok_iff.1 hread
      refine ⟨code.toNat, hwrites, ?_⟩
      -- a foreign code would have failed
      by_contra hrange
      rw [run_of_foreign network htop hwrites code.toNat_lt hrange] at hline
      cases hline
  · rintro ⟨v, hwrites, hlow, hhigh⟩
    obtain ⟨d, -, -, -, hrun⟩ := exists_told network htop hwrites hlow hhigh
    exact ⟨_, hrun⟩

/-- **A text is told of, fails as the code of no error, or is refused.**

It is told of exactly if it writes one of the codes 6000 to 6011; then the line
is the code in decimal and the message of the one entry that bears it.  If it
writes another number of 32 bits, the failure names that number.  If it writes
none, or only a larger one, the command line is refused for the value of the
flag, which is named. -/
theorem explainError_outcome (text : String) :
    ((∃ line, run network environment (top ++ ["explain-error", "--code=" ++ text])
        = .printed line) ↔ ∃ v, WritesCode text.toList v ∧ 6000 ≤ v ∧ v ≤ 6011) ∧
    (∀ v, WritesCode text.toList v → 6000 ≤ v → v ≤ 6011 →
      ∃ d ∈ ProgramError.catalog, d.code = v ∧
        (∀ d' ∈ ProgramError.catalog, d'.code = v → d' = d) ∧
        run network environment (top ++ ["explain-error", "--code=" ++ text])
          = .printed (toString v ++ ": " ++ d.message ++ "\n")) ∧
    (∀ v, WritesCode text.toList v → v < 2 ^ 32 → ¬ (6000 ≤ v ∧ v ≤ 6011) →
      run network environment (top ++ ["explain-error", "--code=" ++ text])
        = .failed (.text s!"{v} is not a merkle distributor error code")) ∧
    ((∀ v, WritesCode text.toList v → 2 ^ 32 ≤ v) →
      ∃ e : NumeralError,
        run network environment (top ++ ["explain-error", "--code=" ++ text])
          = .refused (.invalidValue s!"invalid error code {text}: {e.message}")) := by
  refine ⟨exists_printed_iff network htop, ?_, ?_, ?_⟩
  · intro v hwrites hlow hhigh
    exact exists_told network htop hwrites hlow hhigh
  · intro v hwrites hv hrange
    exact run_of_foreign network htop hwrites hv hrange
  · intro hlarge
    exact exists_refusal network htop hlarge

end

/-- A code in hexadecimal with a plus sign and leading zeros is told of; the
same digits in decimal are the code of no error. -/
theorem explainError_outcome_hex :
    run (Node.ofLedger .empty).transport [] ["explain-error", "--code=0x+001770"]
        = .printed "6000: Insufficient unlocked tokens\n" ∧
    run (Node.ofLedger .empty).transport [] ["explain-error", "--code=+001770"]
        = .failed (.text "1770 is not a merkle distributor error code") ∧
    ∃ reason, run (Node.ofLedger .empty).transport [] ["explain-error", "--code=0X1770"]
        = .refused (.invalidValue reason) := by
  have htop : Invocation.topLevel.Gives [] [] (Invocation.globals none none) :=
    Level.gives_of_writes .nil fun _ => rfl
  refine ⟨?_, ?_, ?_⟩
  · have hread : readErrorCode "0x+001770" = .ok 6000 := by decide +kernel
    obtain ⟨d, hd, hcode, -, hrun⟩ :=
      (explainError_outcome (Node.ofLedger .empty).transport htop "0x+001770").2.1 6000
        (readErrorCode_eq_ok_iff.1 hread) (Nat.le_refl _) (by decide)
    have hd' : d
        = ProgramError.entry 0 "InsufficientUnlockedTokens" "Insufficient unlocked tokens" :=
      ProgramError.eq_of_code_eq (by decide) hd hcode
    rw [hd'] at hrun
    exact hrun
  · have hread : readErrorCode "+001770" = .ok 1770 := by decide +kernel
    exact (explainError_outcome (Node.ofLedger .empty).transport htop "+001770").2.2.1 1770
      (readErrorCode_eq_ok_iff.1 hread) (by decide) (by decide)
  · have hread : readErrorCode "0X1770" = .error .invalidDigit := by decide +kernel
    have hlarge : ∀ v, WritesCode "0X1770".toList v → 2 ^ 32 ≤ v := by
      intro v hwrites
      by_contra hv
      obtain ⟨code, rfl⟩ := exists_code_of_lt (Nat.not_le.1 hv)
      rw [readErrorCode_eq_ok_iff.2 hwrites] at hread
      cases hread
    obtain ⟨e, hrun⟩ :=
      (explainError_outcome (Node.ofLedger .empty).transport htop "0X1770").2.2.2 hlarge
    exact ⟨_, hrun⟩

end CommandLine

end MerkleAirdrop
