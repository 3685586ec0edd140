/-
  MerkleAirdrop.ProgramError
  ──────────────────────────
  **THE ERRORS THAT THE PROGRAM ITSELF REPORTS.**

  The program numbers its errors from 6000 in a fixed order.  A failed
  instruction reports either a number of a program's own or one of the
  runtime's errors, which have no such number.

  What is told of an error stands in a catalog, which is looked up by the
  distance of the error's code from the first:

      ProgramError.lookup?_eq_some_iff   the errors and the catalog go in step
-/
namespace MerkleAirdrop

/-! ## §1. Errors and their codes. -/

/-- An error of the program. -/
inductive ProgramError where
  | insufficientUnlockedTokens
  | invalidProof
  | exceededMaxClaim
  | maxNodesExceeded
  | unauthorized
  | ownerMismatch
  | clawbackAlreadyClaimed
  | sameAdmin
  | claimExpired
  | arithmeticError
  | startTimestampAfterEnd
  | timestampsNotInFuture
  deriving DecidableEq, Repr

namespace ProgramError

/-- The errors in the order of their codes. -/
def all : List ProgramError := [
  insufficientUnlockedTokens,
  invalidProof,
  exceededMaxClaim,
  maxNodesExceeded,
  unauthorized,
  ownerMismatch,
  clawbackAlreadyClaimed,
  sameAdmin,
  claimExpired,
  arithmeticError,
  startTimestampAfterEnd,
  timestampsNotInFuture]

/-- The code of the first error. -/
def firstCode : Nat := 6000

/-- The code of an error: the errors are numbered as they are declared. -/
def code (e : ProgramError) : Nat := firstCode + e.ctorIdx

/-- The error of a code, if it is one of the program's. -/
def ofCode? (code : Nat) : Option ProgramError :=
  if firstCode ≤ code then all[code - firstCode]? else none

end ProgramError

/-! ## §2. The catalog. -/

/-- What is told of an error. -/
structure ErrorDescriptor where
  code : Nat
  name : String
  message : String
  deriving DecidableEq, Repr

/-- The code and the words. -/
def ErrorDescriptor.text (d : ErrorDescriptor) : String := s!"{d.code}: {d.message}"

namespace ProgramError

/-- What is told of the error with this distance from the first. -/
def entry (offset : Nat) (name message : String) : ErrorDescriptor :=
  ⟨firstCode + offset, name, message⟩

/-- What is told of each error, by the distance of its code from the first. -/
def catalog : List ErrorDescriptor := [
  entry 0 "InsufficientUnlockedTokens" "Insufficient unlocked tokens",
  entry 1 "InvalidProof" "Invalid Merkle proof.",
  entry 2 "ExceededMaxClaim" "Exceeded maximum claim amount",
  entry 3 "MaxNodesExceeded" "Exceeded maximum node count",
  entry 4 "Unauthorized" "Account is not authorized to execute this instruction",
  entry 5 "OwnerMismatch" "Token account owner did not match intended owner",
  entry 6 "ClawbackAlreadyClaimed" "Clawback already claimed",
  entry 7 "SameAdmin" "New and old admin are identical",
  entry 8 "ClaimExpired" "Claim window expired",
  entry 9 "ArithmeticError" "Arithmetic Error (overflow/underflow)",
  entry 10 "StartTimestampAfterEnd" "Start Timestamp cannot be after end Timestamp",
  entry 11 "TimestampsNotInFuture" "Timestamps cannot be in the past"]

/-- The catalog reaches as far as the errors do. -/
theorem index_lt (e : ProgramError) : e.code - firstCode < catalog.length := by
  cases e <;> decide

/-- What is told of an error. -/
def descriptor (e : ProgramError) : ErrorDescriptor := catalog.get ⟨e.code - firstCode, e.index_lt⟩

/-- The name of an error. -/
def name (e : ProgramError) : String := e.descriptor.name

/-- An error in words. -/
def message (e : ProgramError) : String := e.descriptor.message

/-- The code and the words. -/
def text (e : ProgramError) : String := e.descriptor.text

/-- What is told of a code, if it is one of the program's. -/
def lookup? (code : Nat) : Option ErrorDescriptor := (ofCode? code).map descriptor

/-! The errors, their list and the catalog go in step. -/

theorem ofCode?_code (e : ProgramError) : ofCode? e.code = some e := by
  cases e <;> rfl

theorem code_descriptor (e : ProgramError) : e.descriptor.code = e.code := by
  cases e <;> rfl

theorem code_of_ofCode? {code : Nat} {e : ProgramError} (h : ofCode? code = some e) :
    code = e.code := by
  unfold ofCode? at h
  split at h
  next hfirst =>
    have hall : ∀ i (hi : i < all.length), i = (all[i]).ctorIdx := by decide
    obtain ⟨hi, rfl⟩ := List.getElem?_eq_some_iff.1 h
    unfold ProgramError.code
    rw [← hall _ hi]
    omega
  next => cases h

theorem descriptor_of_mem {d : ErrorDescriptor} (h : d ∈ catalog) :
    ∃ e : ProgramError, e.descriptor = d ∧ ofCode? d.code = some e := by
  have hall : ∀ d ∈ catalog, ∃ e ∈ all, e.descriptor = d := by decide
  obtain ⟨e, -, rfl⟩ := hall d h
  exact ⟨e, rfl, e.code_descriptor ▸ e.ofCode?_code⟩

/-- **A code is told of as the catalog says.** -/
theorem lookup?_eq_some_iff {code : Nat} {d : ErrorDescriptor} :
    lookup? code = some d ↔ d ∈ catalog ∧ d.code = code := by
  unfold lookup?
  rw [Option.map_eq_some_iff]
  constructor
  · rintro ⟨e, he, rfl⟩
    exact ⟨List.get_mem _ _, e.code_descriptor.trans (code_of_ofCode? he).symm⟩
  · rintro ⟨hd, rfl⟩
    obtain ⟨e, rfl, he⟩ := descriptor_of_mem hd
    exact ⟨e, he, rfl⟩

end ProgramError

/-! ## §3. What a failed instruction reports. -/

/-- The error of a failed instruction. -/
inductive ReportedError where
  /-- A number of the program's own. -/
  | custom (code : UInt32)
  /-- One of the runtime's errors. -/
  | runtime
  deriving DecidableEq, Repr

namespace ReportedError

/-- The error that a program's exit word stands for.  The upper half alone,
with a zero below it, stands for the custom code zero if it is 1 and for an
error of the runtime from 2 to 26; any other word is a custom code in its
lower half. -/
def ofWord (word : UInt64) : ReportedError :=
  let high := word.toNat / UInt32.size
  let low := word.toNat % UInt32.size
  if low = 0 ∧ 2 ≤ high ∧ high ≤ 26 then .runtime else .custom (UInt32.ofNat low)

/-- The program's error that was reported, if it was one. -/
def programError? : ReportedError → Option ProgramError
  | custom code => ProgramError.ofCode? code.toNat
  | runtime => none

end ReportedError

end MerkleAirdrop
