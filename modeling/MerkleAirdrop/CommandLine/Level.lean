/-
  MerkleAirdrop.CommandLine.Level
  ───────────────────────────────
  **ONE LEVEL OF A COMMAND LINE, FROM LEFT TO RIGHT.**

  A command line has two levels: what stands before the command, and what
  stands behind it.  A level has its flags and, at the top, its commands.

  A flag's value stands behind an equals sign or is the next argument.  A
  value that stands apart is read only when the next flag of the level turns
  up, or the help, or at the end of the level: so an argument that nothing
  takes is refused before a bad value that stands to its left.  An argument
  that begins with a dash is never a value that stands apart.  Two dashes
  alone end the flags; no level takes what may follow them.
-/
import MerkleAirdrop.CommandLine.Flag

namespace MerkleAirdrop.CommandLine

/-! ## §1. Arguments. -/

/-- What an argument looks like. -/
inductive Token where
  /-- Two dashes alone. -/
  | escape
  /-- Two dashes and a name, with the value behind an equals sign, if there
  is one. -/
  | long (name : String) (value? : Option String)
  /-- One dash and letters, of which this is the first. -/
  | short (letter : Char)
  /-- Anything else, one dash alone too. -/
  | plain
  deriving DecidableEq, Repr

/-- What an argument looks like. -/
def Token.ofArgument (argument : String) : Token :=
  match argument.toList with
  | ['-', '-'] => .escape
  | '-' :: '-' :: rest =>
    let value? := match rest.dropWhile (· != '=') with
      | _ :: value => some (String.ofList value)
      | [] => none
    .long (String.ofList (rest.takeWhile (· != '='))) value?
  | '-' :: letter :: _ => .short letter
  | _ => .plain

/-! ## §2. Levels. -/

/-- What may stand at one level. -/
structure Level where
  flags : List Flag
  /-- The names of the commands; none behind a command. -/
  commands : List String
  /-- Whether the version can be asked for. -/
  tellsVersion : Bool

/-- What an argument with dashes asks for. -/
inductive Request where
  | flag (flag : Flag)
  | help
  | version

namespace Level

/-- What a name behind two dashes asks for. -/
def long? (level : Level) (name : String) : Option Request :=
  match level.flags.find? (·.name == name) with
  | some flag => some (.flag flag)
  | none =>
    if name = "help" then some .help
    else if name = "version" ∧ level.tellsVersion then some .version
    else none

/-- What a letter behind one dash asks for. -/
def short? (level : Level) (letter : Char) : Option Request :=
  if letter = 'h' then some .help
  else if letter = 'V' ∧ level.tellsVersion then some .version
  else none

/-- Whether a word is a command.  Where there are commands, `help` is one
too. -/
def isCommand (level : Level) (word : String) : Bool :=
  level.commands.contains word || (!level.commands.isEmpty && word == "help")

/-- Why a level does not take a word that is no value.  Behind the escape a
command is not a command. -/
def unexpected (level : Level) (word : String) (escaped : Bool) : UsageError :=
  if level.commands.isEmpty || (escaped && level.isCommand word) then
    .unknownArgument
  else
    .invalidSubcommand

/-- What becomes of the command `help` before these words: help with a
command, or with nothing. -/
def helpWith (level : Level) : List String → UsageError
  | [] => .help
  | [word] => if level.isCommand word then .help else .invalidSubcommand
  | _ => .invalidSubcommand

end Level

/-! ## §3. Progress. -/

/-- What has been read of a level. -/
structure Progress where
  /-- The values that have been read. -/
  given : Assignment
  /-- A flag that is not settled, and the value that stands apart from it, if
  that has turned up. -/
  pending : Option (Flag × Option String)

namespace Progress

/-- Nothing read yet. -/
def initial : Progress := ⟨[], none⟩

/-- The flag whose value is to be the next argument. -/
def awaiting? (p : Progress) : Option Flag :=
  match p.pending with
  | some (flag, none) => some flag
  | _ => none

/-- Reads the value of the flag that is not settled. -/
def settle (p : Progress) : Except UsageError Assignment :=
  match p.pending with
  | none => .ok p.given
  | some (_, none) => .error .missingValue
  | some (flag, some text) => p.given.give flag text

end Progress

/-! ## §4. The run through a level. -/

/-- Where the run through a level ended: at a command, with the words behind
it, or at the end of the line. -/
abbrev Stop := Option (String × List String)

namespace Level

/-- Runs through a level. -/
def scan (level : Level) (p : Progress) : List String → Except UsageError (Progress × Stop)
  | [] => .ok (p, none)
  | argument :: rest =>
    -- a word behind a flag that waits for its value is that value, even if it
    -- is also the name of a command
    if p.awaiting?.isNone && level.isCommand argument then
      if level.commands.contains argument then
        .ok (p, some (argument, rest))
      else
        .error (level.helpWith rest)
    else
      match Token.ofArgument argument with
      | .escape =>
        match rest with
        | [] => .ok (p, none)
        | word :: _ => .error (level.unexpected word true)
      | .long name value? =>
        match level.long? name, value? with
        | some (.flag flag), some value => do
          -- the flag before this one comes first
          let given ← p.settle
          let given ← given.give flag value
          level.scan ⟨given, none⟩ rest
        | some (.flag flag), none => do
          let given ← p.settle
          level.scan ⟨given, some (flag, none)⟩ rest
        | some .help, none => do
          let _ ← p.settle
          .error .help
        | some .version, none => do
          let _ ← p.settle
          .error .version
        | some _, some _ => .error .unneededValue
        | none, _ => .error .unknownArgument
      | .short letter =>
        match level.short? letter with
        | some .version => do
          let _ ← p.settle
          .error .version
        | some _ => do
          let _ ← p.settle
          .error .help
        | none => .error .unknownArgument
      | .plain =>
        match p.awaiting? with
        | some flag => level.scan ⟨p.given, some (flag, some argument)⟩ rest
        | none => .error (level.unexpected argument false)

/-- The assignment at the end of a level, filled from the environment. -/
def finish (level : Level) (environment : List (String × String)) (p : Progress) :
    Except UsageError Assignment := do
  let given ← p.settle
  given.fillFrom environment level.flags

end Level

end MerkleAirdrop.CommandLine
