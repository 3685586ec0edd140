/-
  MerkleAirdrop.CommandLine.Flag
  ──────────────────────────────
  **FLAGS, WHAT THEIR VALUES ARE READ AS, AND HOW A COMMAND LINE IS REFUSED.**

  A flag has a name and a kind of value.  A flag that takes many values may
  be repeated, and each text given for it is split at its commas; any other
  flag may be given once.  A flag that is not given falls back to the
  environment variable of its name.
-/
import MerkleAirdrop.Address
import MerkleAirdrop.Numeral

namespace MerkleAirdrop.CommandLine

/-! ## §1. Refusals. -/

/-- Why a command line is not run. -/
inductive UsageError where
  /-- A flag or an argument that nothing takes. -/
  | unknownArgument
  /-- A word where a command should stand. -/
  | invalidSubcommand
  /-- A flag with no value behind it. -/
  | missingValue
  /-- A value attached to a flag that takes none. -/
  | unneededValue
  /-- A flag given twice. -/
  | repeatedFlag
  /-- A value that is not of its kind, and what is said of it. -/
  | invalidValue (reason : String)
  /-- A flag that has to be given and is not. -/
  | missingFlag
  /-- Flags, but no command. -/
  | missingSubcommand
  /-- Nothing at all. -/
  | noArguments
  /-- The help is asked for. -/
  | help
  /-- The version is asked for. -/
  | version
  deriving DecidableEq, Repr

/-! ## §2. Values. -/

/-- What the value of a flag is read as. -/
inductive ValueKind where
  | text
  | address
  | hash
  | u64
  | i64
  /-- A 32-bit number in decimal, or in hexadecimal behind `0x`. -/
  | errorCode
  deriving DecidableEq, Repr

/-- The value of a flag. -/
inductive FlagValue where
  | text (s : String)
  | address (a : Address)
  | hash (h : Hash)
  | u64 (n : UInt64)
  | i64 (n : Int64)
  | errorCode (n : UInt32)
  deriving DecidableEq

/-- A 32-bit number in decimal, or in hexadecimal behind `0x`. -/
def readErrorCode (text : String) : Except NumeralError UInt32 :=
  match text.toList with
  | '0' :: 'x' :: digits => Numeral.readU32 16 digits
  | digits => Numeral.readU32 10 digits

/-- The value that a text writes, or what is said of the text. -/
def ValueKind.read : ValueKind → String → Except String FlagValue
  | .text, s => .ok (.text s)
  | .address, s => ((Address.parse s).mapError Address.errorMessage).map .address
  | .hash, s => ((Address.parse s).mapError Hash.errorMessage).map .hash
  | .u64, s => ((Numeral.readU64 s).mapError NumeralError.message).map .u64
  | .i64, s => ((Numeral.readI64 s).mapError NumeralError.message).map .i64
  | .errorCode, s =>
    ((readErrorCode s).mapError fun e => s!"invalid error code {s}: {e.message}").map .errorCode

/-! ## §3. Flags. -/

/-- A flag of a command. -/
structure Flag where
  /-- The name behind the two dashes. -/
  name : String
  kind : ValueKind
  /-- Whether it takes many values. -/
  many : Bool
  deriving DecidableEq, Repr

namespace Flag

/-- A flag that is given once. -/
def single (name : String) (kind : ValueKind) : Flag := ⟨name, kind, false⟩

/-- The environment variable that a flag falls back to: its name in capitals,
with underscores for the dashes. -/
def variableName (flag : Flag) : String :=
  String.ofList (flag.name.toList.map fun c => if c = '-' then '_' else c.toUpper)

/-- The pieces of a text between the occurrences of a character, at least
one. -/
def splitAt (mark : Char) : List Char → List (List Char)
  | [] => [[]]
  | c :: rest =>
    if c = mark then
      [] :: splitAt mark rest
    else
      match splitAt mark rest with
      | piece :: pieces => (c :: piece) :: pieces
      | [] => [[c]]

/-- The texts of the values in a text given for a flag. -/
def pieces (flag : Flag) (text : String) : List String :=
  if flag.many then (splitAt ',' text.toList).map String.ofList else [text]

/-- The values in a text given for a flag; the first that cannot be read is
reported. -/
def read (flag : Flag) (text : String) : Except UsageError (List FlagValue) :=
  (flag.pieces text).mapM fun piece => (flag.kind.read piece).mapError UsageError.invalidValue

end Flag

/-! ## §4. Assignments. -/

/-- The values that have been given, each with the name of its flag. -/
abbrev Assignment := List (String × FlagValue)

namespace Assignment

/-- Whether a flag has been given. -/
def isGiven (a : Assignment) (flag : Flag) : Bool := a.any (·.1 == flag.name)

/-- The assignment with the values of one more text.  A flag for one value
that has been given before is refused before its text is read. -/
def give (a : Assignment) (flag : Flag) (text : String) : Except UsageError Assignment :=
  if isGiven a flag && !flag.many then
    .error .repeatedFlag
  else
    (flag.read text).map fun values => a ++ values.map (flag.name, ·)

/-- The assignment with every flag that was not given taken from the
environment, where it has the flag's variable. -/
def fillFrom (environment : List (String × String)) (a : Assignment) :
    List Flag → Except UsageError Assignment
  | [] => .ok a
  | flag :: rest =>
    if isGiven a flag then
      fillFrom environment a rest
    else
      match environment.lookup flag.variableName with
      | none => fillFrom environment a rest
      | some text => do fillFrom environment (← give a flag text) rest

/-- The values of a flag in the order in which they were given. -/
def values (a : Assignment) (name : String) : List FlagValue :=
  (a.filter (·.1 == name)).map (·.2)

/-- The text given for a flag. -/
def text? (a : Assignment) (name : String) : Option String :=
  (values a name).findSome? fun
    | .text s => some s
    | _ => none

/-- The address given for a flag. -/
def address? (a : Assignment) (name : String) : Option Address :=
  (values a name).findSome? fun
    | .address x => some x
    | _ => none

/-- The hash given for a flag. -/
def hash? (a : Assignment) (name : String) : Option Hash :=
  (values a name).findSome? fun
    | .hash x => some x
    | _ => none

/-- The hashes given for a flag, in order. -/
def hashes (a : Assignment) (name : String) : List Hash :=
  (values a name).filterMap fun
    | .hash x => some x
    | _ => none

/-- The unsigned number given for a flag. -/
def u64? (a : Assignment) (name : String) : Option UInt64 :=
  (values a name).findSome? fun
    | .u64 n => some n
    | _ => none

/-- The signed number given for a flag. -/
def i64? (a : Assignment) (name : String) : Option Int64 :=
  (values a name).findSome? fun
    | .i64 n => some n
    | _ => none

/-- The error code given for a flag. -/
def errorCode? (a : Assignment) (name : String) : Option UInt32 :=
  (values a name).findSome? fun
    | .errorCode n => some n
    | _ => none

end Assignment

end MerkleAirdrop.CommandLine
