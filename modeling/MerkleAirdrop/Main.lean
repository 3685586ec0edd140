/-
  MerkleAirdrop.Main
  ──────────────────
  **THE PROGRAM.**

  The program holds no connection to a node: the commands that derive, build,
  decode and explain work in full, and those that show an account fail as if
  no node answered, whatever its url.
-/
import MerkleAirdrop.CommandLine.Run

namespace MerkleAirdrop.CommandLine

/-- Why a command line is refused, in words. -/
def UsageError.message : UsageError → String
  | .unknownArgument => "unexpected argument"
  | .invalidSubcommand => "unrecognized subcommand"
  | .missingValue => "a value is required"
  | .unneededValue => "unexpected value"
  | .repeatedFlag => "the argument cannot be used multiple times"
  | .invalidValue reason => s!"invalid value: {reason}"
  | .missingFlag => "a required argument was not provided"
  | .missingSubcommand => "a subcommand is required"
  | .noArguments | .help => helpText
  | .version => "0.1.0"
where
  helpText : String :=
    "Commands:\n" ++ String.join (subcommands.map fun s => "  " ++ s.name ++ "\n")

/-- A failure in words: the outermost cause, and the others below it, counted
from zero if they are several. -/
def Failure.message (failure : Failure) : String :=
  match failure.chain.map (·.getD "request failed") with
  | [] => "Error"
  | [only] => "Error: " ++ only
  | [outer, inner] => "Error: " ++ outer ++ "\n\nCaused by:\n    " ++ inner
  | outer :: inner =>
    "Error: " ++ outer ++ "\n\nCaused by:"
      ++ String.join (inner.mapIdx fun i cause => s!"\n    {i}: {cause}")

/-- The variables of the environment that flags fall back to. -/
def environmentNames : List String :=
  ((Invocation.topLevel.flags ++ subcommands.flatMap (·.flags)).map (·.variableName)).eraseDups

/-- The environment, as far as flags look at it. -/
def readEnvironment : IO (List (String × String)) :=
  environmentNames.filterMapM fun name => do return (← IO.getEnv name).map (name, ·)

end MerkleAirdrop.CommandLine

open MerkleAirdrop in
open MerkleAirdrop.CommandLine in
def main (arguments : List String) : IO UInt32 := do
  match run Node.unreachable.transport (← readEnvironment) arguments with
  | .printed text =>
    IO.print text
    return 0
  | .failed failure =>
    IO.eprintln failure.message
    return 1
  | .refused e =>
    match e with
    | .help | .version =>
      IO.println e.message
      return 0
    | _ =>
      IO.eprintln e.message
      return 2
