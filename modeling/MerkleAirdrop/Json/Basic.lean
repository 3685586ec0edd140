/-
  MerkleAirdrop.Json.Basic
  ────────────────────────
  **JSON VALUES AND THEIR TEXT.**

  Values keep the order of members and of repeated names.  A text may hold
  half of a surrogate pair, written as an escape, and then stands for no
  characters; such a text is a `none`.

  A value is written on one line without blanks, or spread over lines with
  an indent of two blanks for each level.  In both forms empty arrays and
  objects are written closed up.
-/
namespace MerkleAirdrop

/-! ## §1. Values. -/

/-- A number as it is written. -/
structure JsonNumber where
  negative : Bool
  /-- What stands before the point. -/
  whole : Nat
  /-- The digits behind the point, if there is one. -/
  fraction : List Nat
  /-- The exponent, if there is one. -/
  exponent : Option Int
  deriving DecidableEq, Repr

/-- A JSON value. -/
inductive Json where
  | null
  | bool (b : Bool)
  | num (n : JsonNumber)
  | str (text : Option String)
  | arr (items : List Json)
  | obj (members : List (Option String × Json))

namespace Json

/-- A natural number. -/
def ofNat (n : Nat) : Json := .num ⟨false, n, [], none⟩

/-- A text. -/
def text (s : String) : Json := .str (some s)

/-- An object with these members in this order. -/
def object (members : List (String × Json)) : Json :=
  .obj (members.map fun (name, value) => (some name, value))

/-- The natural number that a number is, if it is written without sign,
point and exponent. -/
def asNat? : Json → Option Nat
  | .num ⟨false, n, [], none⟩ => some n
  | _ => none

/-- The truth value that the value is. -/
def asBool? : Json → Option Bool
  | .bool b => some b
  | _ => none

/-- The characters of a text that stands for characters. -/
def asText? : Json → Option String
  | .str text => text
  | _ => none

/-- The items of an array. -/
def asArray? : Json → Option (List Json)
  | .arr items => some items
  | _ => none

/-! ## §2. Scalars. -/

/-- The four hexadecimal digits of an escape. -/
def hexDigits (n : Nat) : List Char :=
  [n / 4096 % 16, n / 256 % 16, n / 16 % 16, n % 16].map Nat.digitChar

/-- A character as it stands in a text. -/
def escaped (c : Char) : List Char :=
  match c with
  | '"' => ['\\', '"']
  | '\\' => ['\\', '\\']
  | '\n' => ['\\', 'n']
  | '\r' => ['\\', 'r']
  | '\t' => ['\\', 't']
  | '\x08' => ['\\', 'b']
  | '\x0c' => ['\\', 'f']
  | c => if c.toNat < 32 then '\\' :: 'u' :: hexDigits c.toNat else [c]

/-- A text in quotes.  What stands for no characters is written as the mark
for an unknown character. -/
def quoted : Option String → List Char
  | some s => '"' :: s.toList.flatMap escaped ++ ['"']
  | none => ['"', '\uFFFD', '"']

/-- The point with the digits behind it, if there are any. -/
def fractionChars (digits : List Nat) : List Char :=
  if digits = [] then [] else '.' :: digits.map Nat.digitChar

/-- The exponent with its mark, if there is one. -/
def exponentChars : Option Int → List Char
  | none => []
  | some e => 'e' :: (toString e).toList

/-- A number as it was written, save for blanks in its spelling: the exponent
mark is `e` and a plus sign is left out. -/
def numberChars (n : JsonNumber) : List Char :=
  (if n.negative then ['-'] else []) ++ (toString n.whole).toList ++ fractionChars n.fraction
    ++ exponentChars n.exponent

/-! ## §3. Values. -/

/-- How a value is spread out. -/
structure Style where
  /-- What stands in front of an item, a member or a closing bracket, by its
  level. -/
  gap : Nat → List Char
  /-- What stands between a colon and the value behind it. -/
  colonGap : List Char

namespace Style

/-- On one line, without blanks. -/
def oneLine : Style := ⟨fun _ => [], []⟩

/-- Over lines, with an indent of two blanks for each level. -/
def indented : Style := ⟨fun level => '\n' :: List.replicate (2 * level) ' ', [' ']⟩

end Style

mutual

/-- The value in a style, begun at a level. -/
def chars (style : Style) (level : Nat) : Json → List Char
  | .null => "null".toList
  | .bool true => "true".toList
  | .bool false => "false".toList
  | .num n => numberChars n
  | .str t => quoted t
  | .arr [] => ['[', ']']
  | .arr (v :: rest) =>
    '[' :: style.gap (level + 1) ++ chars style (level + 1) v ++ itemChars style level rest
  | .obj [] => ['\x7b', '\x7d']
  | .obj ((name, v) :: rest) =>
    '\x7b' :: style.gap (level + 1) ++ quoted name ++ ':' :: style.colonGap
      ++ chars style (level + 1) v ++ memberChars style level rest

/-- The items behind the first, with the closing bracket. -/
def itemChars (style : Style) (level : Nat) : List Json → List Char
  | [] => style.gap level ++ [']']
  | v :: rest =>
    ',' :: style.gap (level + 1) ++ chars style (level + 1) v ++ itemChars style level rest

/-- The members behind the first, with the closing brace. -/
def memberChars (style : Style) (level : Nat) : List (Option String × Json) → List Char
  | [] => style.gap level ++ ['\x7d']
  | (name, v) :: rest =>
    ',' :: style.gap (level + 1) ++ quoted name ++ ':' :: style.colonGap
      ++ chars style (level + 1) v ++ memberChars style level rest

end

/-- The value on one line. -/
def compact (j : Json) : String := String.ofList (j.chars .oneLine 0)

/-- The value spread over lines. -/
def pretty (j : Json) : String := String.ofList (j.chars .indented 0)

end Json

end MerkleAirdrop
