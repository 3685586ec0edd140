/-
  MerkleAirdrop.Json.Parse
  ────────────────────────
  **READING JSON.**

  Each reader takes the characters that are left and gives back what it read
  and what is left then, or nothing if the text is not JSON.  Blanks are the
  space, the tab, the line feed and the carriage return, and no other
  character.

  Readers of values, items and members call each other; each call spends one
  unit of fuel, and a text has fuel for all its characters.
-/
import MerkleAirdrop.Json.Basic
import MerkleAirdrop.Numeral

namespace MerkleAirdrop.Json

/-! ## §1. Blanks. -/

/-- Whether a character is a blank. -/
def isBlank (c : Char) : Bool := c == ' ' || c == '\t' || c == '\n' || c == '\r'

/-- The characters from the first that is not blank. -/
def skip (cs : List Char) : List Char := cs.dropWhile isBlank

/-! ## §2. Texts. -/

/-- The code that four hexadecimal digits write. -/
def hexValue? (a b c d : Char) : Option Nat := do
  let w ← Numeral.digitValue? 16 a
  let x ← Numeral.digitValue? 16 b
  let y ← Numeral.digitValue? 16 c
  let z ← Numeral.digitValue? 16 d
  return ((w * 16 + x) * 16 + y) * 16 + z

/-- The code that a letter stands for behind a backslash. -/
def escapeValue? : Char → Option Nat
  | '"' => some 34
  | '\\' => some 92
  | '/' => some 47
  | 'b' => some 8
  | 'f' => some 12
  | 'n' => some 10
  | 'r' => some 13
  | 't' => some 9
  | _ => none

/-- The codes of a text up to its closing quote.  Escapes stand for the code
they write, even one that is half of a pair. -/
def readCodes : List Char → Option (List Nat × List Char)
  | [] => none
  | '"' :: rest => some ([], rest)
  | '\\' :: 'u' :: a :: b :: c :: d :: rest => do
    let code ← hexValue? a b c d
    let (codes, rest) ← readCodes rest
    return (code :: codes, rest)
  | '\\' :: e :: rest => do
    let code ← escapeValue? e
    let (codes, rest) ← readCodes rest
    return (code :: codes, rest)
  | c :: rest =>
    if c == '\\' || c.toNat < 32 then
      none
    else do
      let (codes, rest) ← readCodes rest
      return (c.toNat :: codes, rest)

/-- Whether a code is the first half of a pair. -/
def isHigh (code : Nat) : Bool := 0xD800 ≤ code && code < 0xDC00

/-- Whether a code is the second half of a pair. -/
def isLow (code : Nat) : Bool := 0xDC00 ≤ code && code < 0xE000

/-- The characters that codes stand for, if no half of a pair stands alone. -/
def decodeCodes : List Nat → Option (List Char)
  | [] => some []
  | high :: low :: rest =>
    if isHigh high && isLow low then do
      let cs ← decodeCodes rest
      return Char.ofNat (0x10000 + (high - 0xD800) * 0x400 + (low - 0xDC00)) :: cs
    else if isHigh high || isLow high then
      none
    else do
      let cs ← decodeCodes (low :: rest)
      return Char.ofNat high :: cs
  | [code] => if isHigh code || isLow code then none else some [Char.ofNat code]

/-- A text behind its opening quote. -/
def readText (cs : List Char) : Option (Option String × List Char) := do
  let (codes, rest) ← readCodes cs
  return ((decodeCodes codes).map String.ofList, rest)

/-! ## §3. Numbers. -/

/-- The values of the decimal digits in front. -/
def digitsOf (cs : List Char) : List Nat :=
  (cs.takeWhile Char.isDigit).map fun c => c.toNat - 48

/-- The characters behind the decimal digits. -/
def afterDigits (cs : List Char) : List Char := cs.dropWhile Char.isDigit

/-- The number that digits write. -/
def ofDigits (ds : List Nat) : Nat := ds.foldl (fun n d => n * 10 + d) 0

/-- The whole part: a zero, or digits that do not start with one. -/
def readWhole : List Char → Option (Nat × List Char)
  | '0' :: rest => some (0, rest)
  | cs => if (digitsOf cs).isEmpty then none else some (ofDigits (digitsOf cs), afterDigits cs)

/-- The digits behind a point; no point is no digits, but a point has some. -/
def readFraction : List Char → Option (List Nat × List Char)
  | '.' :: rest => if (digitsOf rest).isEmpty then none else some (digitsOf rest, afterDigits rest)
  | cs => some ([], cs)

/-- The exponent, if its mark is there. -/
def readExponent : List Char → Option (Option Int × List Char)
  | 'e' :: '-' :: rest | 'E' :: '-' :: rest => power (fun n => -(n : Int)) rest
  | 'e' :: '+' :: rest | 'E' :: '+' :: rest => power (fun n => (n : Int)) rest
  | 'e' :: rest | 'E' :: rest => power (fun n => (n : Int)) rest
  | cs => some (none, cs)
where
  power (signed : Nat → Int) (cs : List Char) : Option (Option Int × List Char) :=
    if (digitsOf cs).isEmpty then none
    else some (some (signed (ofDigits (digitsOf cs))), afterDigits cs)

/-- Whether a minus sign stands in front, and what stands behind it. -/
def readSign : List Char → Bool × List Char
  | '-' :: rest => (true, rest)
  | cs => (false, cs)

/-- A number. -/
def readNumber (cs : List Char) : Option (JsonNumber × List Char) := do
  let (negative, cs) := readSign cs
  let (whole, cs) ← readWhole cs
  let (fraction, cs) ← readFraction cs
  let (exponent, cs) ← readExponent cs
  return (⟨negative, whole, fraction, exponent⟩, cs)

/-! ## §4. Values.

One step of each reader, given the readers it calls. -/

/-- The value of a word, if its letters stand in front. -/
def readWord (letters : List Char) (value : Json) (cs : List Char) : Option (Json × List Char) :=
  if letters.isPrefixOf cs then some (value, cs.drop letters.length) else none

/-- An array behind its opening bracket. -/
def readArray (readItems : List Char → Option (List Json × List Char)) (cs : List Char) :
    Option (Json × List Char) :=
  match skip cs with
  | ']' :: rest => some (.arr [], rest)
  | rest => do
    let (items, rest) ← readItems rest
    return (.arr items, rest)

/-- An object behind its opening brace. -/
def readObject (readMembers : List Char → Option (List (Option String × Json) × List Char))
    (cs : List Char) : Option (Json × List Char) :=
  match skip cs with
  | '\x7d' :: rest => some (.obj [], rest)
  | rest => do
    let (members, rest) ← readMembers rest
    return (.obj members, rest)

/-- A value, with blanks in front. -/
def valueStep (readItems : List Char → Option (List Json × List Char))
    (readMembers : List Char → Option (List (Option String × Json) × List Char))
    (cs : List Char) : Option (Json × List Char) :=
  match skip cs with
  | 'n' :: rest => readWord ['u', 'l', 'l'] .null rest
  | 't' :: rest => readWord ['r', 'u', 'e'] (.bool true) rest
  | 'f' :: rest => readWord ['a', 'l', 's', 'e'] (.bool false) rest
  | '"' :: rest => do
    let (text, rest) ← readText rest
    return (.str text, rest)
  | '[' :: rest => readArray readItems rest
  | '\x7b' :: rest => readObject readMembers rest
  -- what begins in no other way can only be a number
  | rest => do
    let (number, rest) ← readNumber rest
    return (.num number, rest)

/-- One or more items, up to the closing bracket. -/
def itemsStep (readValue : List Char → Option (Json × List Char))
    (readItems : List Char → Option (List Json × List Char)) (cs : List Char) :
    Option (List Json × List Char) := do
  let (item, rest) ← readValue cs
  match skip rest with
  | ']' :: rest => return ([item], rest)
  | ',' :: rest => do
    let (items, rest) ← readItems rest
    return (item :: items, rest)
  | _ => none

/-- A member's name and the colon behind it. -/
def readName : List Char → Option (Option String × List Char)
  | '"' :: rest => do
    let (name, rest) ← readText rest
    match skip rest with
    | ':' :: rest => return (name, rest)
    | _ => none
  | _ => none

/-- One or more members, up to the closing brace. -/
def membersStep (readValue : List Char → Option (Json × List Char))
    (readMembers : List Char → Option (List (Option String × Json) × List Char))
    (cs : List Char) : Option (List (Option String × Json) × List Char) := do
  let (name, rest) ← readName (skip cs)
  let (value, rest) ← readValue rest
  match skip rest with
  | '\x7d' :: rest => return ([(name, value)], rest)
  | ',' :: rest => do
    let (members, rest) ← readMembers rest
    return ((name, value) :: members, rest)
  | _ => none

mutual

/-- A value, if the fuel lasts. -/
def readValue : Nat → List Char → Option (Json × List Char)
  | 0, _ => none
  | fuel + 1, cs => valueStep (readItems fuel) (readMembers fuel) cs

/-- Items, if the fuel lasts. -/
def readItems : Nat → List Char → Option (List Json × List Char)
  | 0, _ => none
  | fuel + 1, cs => itemsStep (readValue fuel) (readItems fuel) cs

/-- Members, if the fuel lasts. -/
def readMembers : Nat → List Char → Option (List (Option String × Json) × List Char)
  | 0, _ => none
  | fuel + 1, cs => membersStep (readValue fuel) (readMembers fuel) cs

end

/-- The value that a text writes, if it writes one and nothing else. -/
def parse? (text : String) : Option Json := do
  let cs := text.toList
  let (value, rest) ← readValue (cs.length + 1) cs
  match skip rest with
  | [] => return value
  | _ => none

end MerkleAirdrop.Json
