/-
  MerkleAirdrop.Proofs.Json.Grammar
  ─────────────────────────────────
  **WHAT A JSON TEXT IS, SAID WITHOUT A READER.**

      Json.Spells cs j      the characters spell the value, and nothing else
      Json.TextOf text j    the text is such characters with blanks around them

  One value has many spellings: blanks may stand around each mark, characters
  of a text may be escaped in several ways, and an exponent has a mark of
  either case.  What is spelled keeps the order of members and their
  repetitions.
-/
import MerkleAirdrop.Json.Parse
import MerkleAirdrop.Proofs.Digits

namespace MerkleAirdrop.Json

/-! ## §1. Blanks. -/

/-- All characters are blanks. -/
def Blanks (cs : List Char) : Prop := ∀ c ∈ cs, isBlank c = true

/-! ## §2. Texts. -/

/-- The letters that may stand behind a backslash, and the codes that they
stand for. -/
def escapeLetters : List (Char × Nat) :=
  [('"', 34), ('\\', 92), ('/', 47), ('b', 8), ('f', 12), ('n', 10), ('r', 13), ('t', 9)]

/-- The characters spell one code of a text. -/
inductive SpellsCode : List Char → Nat → Prop
  /-- A character for itself. -/
  | plain {c : Char} (hquote : c ≠ '"') (hslash : c ≠ '\\') (hc : 32 ≤ c.toNat) :
      SpellsCode [c] c.toNat
  /-- A letter behind a backslash. -/
  | letter {e : Char} {code : Nat} (h : (e, code) ∈ escapeLetters) : SpellsCode ['\\', e] code
  /-- The four hexadecimal digits of the code. -/
  | digits {cs : List Char} {code : Nat} (hlength : cs.length = 4)
      (h : Numeral.WritesDigits 16 cs code) : SpellsCode ('\\' :: 'u' :: cs) code

/-- The characters spell codes in a row. -/
inductive SpellsCodes : List Char → List Nat → Prop
  | nil : SpellsCodes [] []
  | cons {cs cs' : List Char} {code : Nat} {codes : List Nat} (h : SpellsCode cs code)
      (hrest : SpellsCodes cs' codes) : SpellsCodes (cs ++ cs') (code :: codes)

/-- The codes stand for the characters: a code for the character that has it, or
the two halves of a pair for a character that has no code of four digits. -/
inductive StandsFor : List Nat → List Char → Prop
  | nil : StandsFor [] []
  | one {codes : List Nat} {cs : List Char} (c : Char) (h : StandsFor codes cs) :
      StandsFor (c.toNat :: codes) (c :: cs)
  | pair {high low : Nat} {codes : List Nat} {c : Char} {cs : List Char}
      (hhigh : 0xD800 ≤ high ∧ high < 0xDC00) (hlow : 0xDC00 ≤ low ∧ low < 0xE000)
      (hc : c.toNat = 0x10000 + (high - 0xD800) * 0x400 + (low - 0xDC00))
      (h : StandsFor codes cs) : StandsFor (high :: low :: codes) (c :: cs)

/-- Between quotes, the characters spell a text, or one that stands for no
characters because half of a pair stands alone in it. -/
def SpellsText (cs : List Char) : Option String → Prop
  | some s => ∃ codes, SpellsCodes cs codes ∧ StandsFor codes s.toList
  | none => ∃ codes, SpellsCodes cs codes ∧ ∀ chars, ¬ StandsFor codes chars

/-! ## §3. Numbers. -/

/-- Digits that begin with a zero only if they are a zero. -/
def SpellsWhole (cs : List Char) (n : Nat) : Prop :=
  Numeral.WritesDigits 10 cs n ∧ (cs.head? = some '0' → cs = ['0'])

/-- Nothing, or a point with digits behind it. -/
inductive SpellsFraction : List Char → List Nat → Prop
  | none : SpellsFraction [] []
  | point {cs : List Char} {ds : List Nat} (hne : ds ≠ []) (h : Numeral.AreDigits 10 cs ds) :
      SpellsFraction ('.' :: cs) ds

/-- The mark of an exponent. -/
def IsMark (c : Char) : Prop := c = 'e' ∨ c = 'E'

/-- Nothing, or a mark with digits behind it, with or without a sign. -/
inductive SpellsExponent : List Char → Option Int → Prop
  | none : SpellsExponent [] none
  | bare {mark : Char} {cs : List Char} {n : Nat} (hmark : IsMark mark)
      (h : Numeral.WritesDigits 10 cs n) : SpellsExponent (mark :: cs) (some n)
  | plus {mark : Char} {cs : List Char} {n : Nat} (hmark : IsMark mark)
      (h : Numeral.WritesDigits 10 cs n) : SpellsExponent (mark :: '+' :: cs) (some n)
  | minus {mark : Char} {cs : List Char} {n : Nat} (hmark : IsMark mark)
      (h : Numeral.WritesDigits 10 cs n) : SpellsExponent (mark :: '-' :: cs) (some (-n))

/-- A sign or none, and the three parts of a number. -/
inductive SpellsNumber : List Char → JsonNumber → Prop
  | mk (negative : Bool) {ws fs es : List Char} {whole : Nat} {fraction : List Nat}
      {exponent : Option Int} (hwhole : SpellsWhole ws whole)
      (hfraction : SpellsFraction fs fraction) (hexponent : SpellsExponent es exponent) :
      SpellsNumber ((if negative then ['-'] else []) ++ (ws ++ (fs ++ es)))
        ⟨negative, whole, fraction, exponent⟩

/-! ## §4. Values. -/

/-- The characters spell a member's name, with blanks around it. -/
inductive SpellsName : List Char → Option String → Prop
  | quoted {bs cs bs' : List Char} {name : Option String} (hbs : Blanks bs)
      (h : SpellsText cs name) (hbs' : Blanks bs') :
      SpellsName (bs ++ '"' :: (cs ++ '"' :: bs')) name

mutual

/-- The characters spell a value. -/
inductive Spells : List Char → Json → Prop
  | null : Spells "null".toList .null
  | bool (b : Bool) : Spells (cond b "true".toList "false".toList) (.bool b)
  | num {cs : List Char} {n : JsonNumber} (h : SpellsNumber cs n) : Spells cs (.num n)
  | str {cs : List Char} {text : Option String} (h : SpellsText cs text) :
      Spells ('"' :: (cs ++ ['"'])) (.str text)
  | arr_nil {bs : List Char} (hbs : Blanks bs) : Spells ('[' :: (bs ++ [']'])) (.arr [])
  | arr {cs : List Char} {items : List Json} (h : SpellsItems cs items) :
      Spells ('[' :: (cs ++ [']'])) (.arr items)
  | obj_nil {bs : List Char} (hbs : Blanks bs) :
      Spells ('\x7b' :: (bs ++ ['\x7d'])) (.obj [])
  | obj {cs : List Char} {members : List (Option String × Json)}
      (h : SpellsMembers cs members) : Spells ('\x7b' :: (cs ++ ['\x7d'])) (.obj members)

/-- The characters spell items with commas between them, at least one. -/
inductive SpellsItems : List Char → List Json → Prop
  | one {bs cs bs' : List Char} {item : Json} (hbs : Blanks bs) (h : Spells cs item)
      (hbs' : Blanks bs') : SpellsItems (bs ++ (cs ++ bs')) [item]
  | more {bs cs bs' rest : List Char} {item : Json} {items : List Json} (hbs : Blanks bs)
      (h : Spells cs item) (hbs' : Blanks bs') (hrest : SpellsItems rest items) :
      SpellsItems (bs ++ (cs ++ (bs' ++ ',' :: rest))) (item :: items)

/-- The characters spell members with commas between them, at least one. -/
inductive SpellsMembers : List Char → List (Option String × Json) → Prop
  | one {ns bs cs bs' : List Char} {name : Option String} {value : Json}
      (hname : SpellsName ns name) (hbs : Blanks bs) (h : Spells cs value) (hbs' : Blanks bs') :
      SpellsMembers (ns ++ ':' :: (bs ++ (cs ++ bs'))) [(name, value)]
  | more {ns bs cs bs' rest : List Char} {name : Option String} {value : Json}
      {members : List (Option String × Json)} (hname : SpellsName ns name) (hbs : Blanks bs)
      (h : Spells cs value) (hbs' : Blanks bs') (hrest : SpellsMembers rest members) :
      SpellsMembers (ns ++ ':' :: (bs ++ (cs ++ (bs' ++ ',' :: rest)))) ((name, value) :: members)

end

/-- The text writes the value, with blanks around it. -/
inductive TextOf : String → Json → Prop
  | mk {bs cs bs' : List Char} {j : Json} (hbs : Blanks bs) (h : Spells cs j)
      (hbs' : Blanks bs') : TextOf (String.ofList (bs ++ (cs ++ bs'))) j

end MerkleAirdrop.Json
