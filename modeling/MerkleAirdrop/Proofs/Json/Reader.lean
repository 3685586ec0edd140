/-
  MerkleAirdrop.Proofs.Json.Reader
  ────────────────────────────────
  **TEXTS THAT ARE READ AS A GIVEN VALUE.**

      Json.Reads cs j   in front of any rest that does not prolong a number,
                        the characters `cs` are read as `j` and no more

  `Reads` composes as JSON does: an array is read when its items are read
  (`Json.Reads.arr`), an object when its names and values are
  (`Json.Reads.obj`), with blanks wherever JSON allows them.  How a value is
  spread out therefore never matters, and the fuel that a text is given for
  its characters is always enough.
-/
import MerkleAirdrop.Proofs.Json.Grammar

namespace MerkleAirdrop.Json

/-! ## §1. Blanks. -/

theorem skip_append {bs : List Char} (h : Blanks bs) (cs : List Char) :
    skip (bs ++ cs) = skip cs := List.dropWhile_append_of_pos h

theorem skip_cons {c : Char} (h : isBlank c = false) (cs : List Char) :
    skip (c :: cs) = c :: cs := by
  unfold skip
  rw [List.dropWhile_cons_of_neg (by rw [h]; decide)]

theorem skip_skip (cs : List Char) : skip (skip cs) = skip cs := by
  induction cs with
  | nil => rfl
  | cons c cs ih =>
    cases h : isBlank c with
    | true => rw [← List.singleton_append, skip_append (by simp [Blanks, h]), ih]
    | false => rw [skip_cons h, skip_cons h]

theorem readValue_succ (fuel : Nat) (cs : List Char) :
    readValue (fuel + 1) cs = valueStep (readItems fuel) (readMembers fuel) cs := rfl

theorem readItems_succ (fuel : Nat) (cs : List Char) :
    readItems (fuel + 1) cs = itemsStep (readValue fuel) (readItems fuel) cs := rfl

theorem readMembers_succ (fuel : Nat) (cs : List Char) :
    readMembers (fuel + 1) cs = membersStep (readValue fuel) (readMembers fuel) cs := rfl

theorem readValue_skip (fuel : Nat) (cs : List Char) :
    readValue fuel (skip cs) = readValue fuel cs := by
  cases fuel with
  | zero => rfl
  | succ fuel => rw [readValue_succ, readValue_succ, valueStep, valueStep, skip_skip]

theorem readItems_skip (fuel : Nat) (cs : List Char) :
    readItems fuel (skip cs) = readItems fuel cs := by
  cases fuel with
  | zero => rfl
  | succ fuel => rw [readItems_succ, readItems_succ, itemsStep, itemsStep, readValue_skip]

theorem readMembers_skip (fuel : Nat) (cs : List Char) :
    readMembers fuel (skip cs) = readMembers fuel cs := by
  cases fuel with
  | zero => rfl
  | succ fuel => rw [readMembers_succ, readMembers_succ, membersStep, membersStep, skip_skip]

/-! ## §2. How a value begins. -/

theorem readValue_null (fuel : Nat) (rest : List Char) :
    readValue (fuel + 1) ('n' :: 'u' :: 'l' :: 'l' :: rest) = some (.null, rest) := rfl

theorem readValue_true (fuel : Nat) (rest : List Char) :
    readValue (fuel + 1) ('t' :: 'r' :: 'u' :: 'e' :: rest) = some (.bool true, rest) := rfl

theorem readValue_false (fuel : Nat) (rest : List Char) :
    readValue (fuel + 1) ('f' :: 'a' :: 'l' :: 's' :: 'e' :: rest) = some (.bool false, rest) := rfl

theorem readValue_quote (fuel : Nat) (cs : List Char) :
    readValue (fuel + 1) ('"' :: cs) = (readText cs).map fun p => (.str p.1, p.2) := by
  show (readText cs).bind _ = _
  cases readText cs <;> rfl

theorem readValue_bracket (fuel : Nat) (cs : List Char) :
    readValue (fuel + 1) ('[' :: cs) = readArray (readItems fuel) cs := rfl

theorem readValue_brace (fuel : Nat) (cs : List Char) :
    readValue (fuel + 1) ('\x7b' :: cs) = readObject (readMembers fuel) cs := rfl

theorem readArray_close (fuel : Nat) {cs rest : List Char} (h : skip cs = ']' :: rest) :
    readArray (readItems fuel) cs = some (.arr [], rest) := by
  unfold readArray
  rw [h]
  rfl

theorem readArray_items (fuel : Nat) {cs : List Char} (h : ∀ rest, skip cs ≠ ']' :: rest) :
    readArray (readItems fuel) cs = (readItems fuel cs).map fun p => (.arr p.1, p.2) := by
  unfold readArray
  split
  next hclose => exact absurd hclose (h _)
  next =>
    rw [readItems_skip]
    cases readItems fuel cs <;> rfl

theorem readObject_close (fuel : Nat) {cs rest : List Char} (h : skip cs = '\x7d' :: rest) :
    readObject (readMembers fuel) cs = some (.obj [], rest) := by
  unfold readObject
  rw [h]
  rfl

theorem readObject_members (fuel : Nat) {cs : List Char} (h : ∀ rest, skip cs ≠ '\x7d' :: rest) :
    readObject (readMembers fuel) cs = (readMembers fuel cs).map fun p => (.obj p.1, p.2) := by
  unfold readObject
  split
  next hclose => exact absurd hclose (h _)
  next =>
    rw [readMembers_skip]
    cases readMembers fuel cs <;> rfl

/-- A minus sign or a digit begins a number. -/
theorem readValue_number {fuel : Nat} {c : Char} (h : c = '-' ∨ c.isDigit = true)
    (cs : List Char) :
    readValue (fuel + 1) (c :: cs) = (readNumber (c :: cs)).map fun p => (.num p.1, p.2) := by
  have hblank : isBlank c = false := by
    rcases h with rfl | h
    · rfl
    · refine Bool.eq_false_iff.2 fun hc => ?_
      simp only [isBlank, Bool.or_eq_true, beq_iff_eq] at hc
      rcases hc with ((rfl | rfl) | rfl) | rfl <;> cases h
  rw [readValue_succ, valueStep, skip_cons hblank]
  split
  -- no other value begins with such a character
  case h_7 => cases readNumber (c :: cs) <;> rfl
  all_goals
    next hcons =>
      injection hcons with hc
      rcases h with h | h
      · rw [h] at hc
        cases hc
      · rw [hc] at h
        cases h

/-! ## §3. Reads of known characters. -/

/-- The characters do not prolong a number that stands in front of them. -/
def Stops (rest : List Char) : Prop :=
  ∀ c, rest.head? = some c → c.isDigit = false ∧ c ≠ '.' ∧ c ≠ 'e' ∧ c ≠ 'E'

/-- In front of any rest that stops a number, exactly `cs` is read, as `j`. -/
def Reads (cs : List Char) (j : Json) : Prop :=
  ∀ (fuel : Nat) (rest : List Char), cs.length ≤ fuel → Stops rest →
    readValue fuel (cs ++ rest) = some (j, rest)

/-- Exactly `cs` is read, as items up to the closing bracket. -/
def ReadsItems (cs : List Char) (items : List Json) : Prop :=
  ∀ (fuel : Nat) (rest : List Char), cs.length ≤ fuel →
    readItems fuel (cs ++ rest) = some (items, rest)

/-- Exactly `cs` is read, as members up to the closing brace. -/
def ReadsMembers (cs : List Char) (members : List (Option String × Json)) : Prop :=
  ∀ (fuel : Nat) (rest : List Char), cs.length ≤ fuel →
    readMembers fuel (cs ++ rest) = some (members, rest)

/-- In front of a closing quote, exactly `cs` is read, as a text. -/
def ReadsText (cs : List Char) (text : Option String) : Prop :=
  ∀ rest, readText (cs ++ '"' :: rest) = some (text, rest)

/-- Exactly `cs` is read, as a member's name with its colon. -/
def ReadsName (cs : List Char) (name : Option String) : Prop :=
  ∀ rest, readName (skip (cs ++ rest)) = some (name, rest)

theorem stops_nil : Stops [] := by
  intro c hc
  cases hc

/-- Blanks and the marks behind a value stop a number. -/
theorem stops_blanks_append {bs rest : List Char} (hbs : Blanks bs) (h : Stops rest) :
    Stops (bs ++ rest) := by
  cases bs with
  | nil => exact h
  | cons b bs =>
    intro c hc
    have hblank : isBlank c = true := Option.some.inj hc ▸ hbs b List.mem_cons_self
    simp only [isBlank, Bool.or_eq_true, beq_iff_eq] at hblank
    rcases hblank with ((rfl | rfl) | rfl) | rfl <;> decide

theorem stops_cons {c : Char} (h : c = ',' ∨ c = ']' ∨ c = '\x7d') (rest : List Char) :
    Stops (c :: rest) := by
  intro c' hc'
  rw [← Option.some.inj hc']
  rcases h with rfl | rfl | rfl <;> decide

namespace Reads

/-- Blanks in front of a value are passed over. -/
theorem blanks {bs cs : List Char} {j : Json} (hbs : Blanks bs) (h : Reads cs j) :
    Reads (bs ++ cs) j := by
  intro fuel rest hfuel hrest
  rw [List.length_append] at hfuel
  rw [List.append_assoc, ← readValue_skip, skip_append hbs, readValue_skip]
  exact h fuel rest (by omega) hrest

/-- What reads a value of at least one character, whatever the fuel, reads it. -/
theorem of_succ {c : Char} {cs : List Char} {j : Json}
    (h : ∀ (fuel : Nat) (rest : List Char), cs.length ≤ fuel → Stops rest →
      readValue (fuel + 1) (c :: (cs ++ rest)) = some (j, rest)) : Reads (c :: cs) j := by
  intro fuel rest hfuel hrest
  cases fuel with
  | zero => cases hfuel
  | succ fuel => exact h fuel rest (Nat.le_of_succ_le_succ hfuel) hrest

theorem null : Reads "null".toList .null :=
  of_succ fun fuel rest _ _ => readValue_null fuel rest

theorem bool (b : Bool) : Reads (cond b "true".toList "false".toList) (.bool b) := by
  cases b with
  | true => exact of_succ fun fuel rest _ _ => readValue_true fuel rest
  | false => exact of_succ fun fuel rest _ _ => readValue_false fuel rest

/-- A value with blanks and a mark behind it is read up to the blanks. -/
theorem before_mark {cs bs : List Char} {j : Json} {c : Char} (h : Reads cs j) (hbs : Blanks bs)
    (hc : c = ',' ∨ c = ']' ∨ c = '\x7d') {fuel : Nat} (hfuel : cs.length ≤ fuel)
    (rest : List Char) :
    readValue fuel (cs ++ (bs ++ c :: rest)) = some (j, bs ++ c :: rest) :=
  h fuel _ hfuel (stops_blanks_append hbs (stops_cons hc rest))

theorem str {cs : List Char} {text : Option String} (h : ReadsText cs text) :
    Reads ('"' :: (cs ++ ['"'])) (.str text) := by
  refine of_succ fun fuel rest _ _ => ?_
  rw [List.append_assoc, readValue_quote, List.singleton_append, h]
  rfl

theorem number {c : Char} {cs : List Char} {n : JsonNumber} (hc : c = '-' ∨ c.isDigit = true)
    (h : ∀ rest, Stops rest → readNumber (c :: (cs ++ rest)) = some (n, rest)) :
    Reads (c :: cs) (.num n) := by
  refine of_succ fun fuel rest _ hrest => ?_
  rw [readValue_number hc, h rest hrest]
  rfl

end Reads

/-! ## §4. Arrays. -/

/-- No value begins with a closing bracket. -/
theorem readItems_close (fuel : Nat) (rest : List Char) : readItems fuel (']' :: rest) = none := by
  cases fuel with
  | zero => rfl
  | succ fuel =>
    rw [readItems_succ, itemsStep]
    cases fuel with
    | zero => rfl
    | succ fuel =>
      rw [readValue_succ, valueStep, skip_cons rfl]
      rfl

namespace ReadsItems

theorem one {cs bs : List Char} {item : Json} (h : Reads cs item) (hbs : Blanks bs) :
    ReadsItems (cs ++ (bs ++ [']'])) [item] := by
  intro fuel rest hfuel
  rw [List.length_append, List.length_append, List.length_singleton] at hfuel
  obtain ⟨fuel, rfl⟩ : ∃ n, fuel = n + 1 := ⟨fuel - 1, by omega⟩
  rw [List.append_assoc, List.append_assoc, List.singleton_append, readItems_succ, itemsStep,
    h.before_mark hbs (by decide) (by omega)]
  simp only [bind, Option.bind, skip_append hbs]
  rw [skip_cons rfl]
  rfl

theorem more {cs bs cs' : List Char} {item : Json} {items : List Json} (h : Reads cs item)
    (hbs : Blanks bs) (hitems : ReadsItems cs' items) :
    ReadsItems (cs ++ (bs ++ ',' :: cs')) (item :: items) := by
  intro fuel rest hfuel
  rw [List.length_append, List.length_append, List.length_cons] at hfuel
  obtain ⟨fuel, rfl⟩ : ∃ n, fuel = n + 1 := ⟨fuel - 1, by omega⟩
  rw [List.append_assoc, List.append_assoc, List.cons_append, readItems_succ, itemsStep,
    h.before_mark hbs (by decide) (by omega)]
  simp only [bind, Option.bind, skip_append hbs]
  rw [skip_cons rfl]
  simp only [↓Char.isValue]
  rw [hitems fuel rest (by omega)]
  rfl

end ReadsItems

namespace Reads

theorem arr_nil {bs : List Char} (hbs : Blanks bs) : Reads ('[' :: (bs ++ [']'])) (.arr []) := by
  refine of_succ fun fuel rest _ _ => readArray_close fuel ?_
  rw [List.append_assoc, skip_append hbs]
  rfl

/-- **An array is read when its items are.** -/
theorem arr {cs : List Char} {items : List Json} (h : ReadsItems cs items) :
    Reads ('[' :: cs) (.arr items) := by
  refine of_succ fun fuel rest hfuel _ => ?_
  have hopen : ∀ more, skip (cs ++ rest) ≠ ']' :: more := by
    intro more hmore
    have hread := h fuel rest hfuel
    rw [← readItems_skip, hmore, readItems_close] at hread
    cases hread
  rw [readValue_bracket, readArray_items fuel hopen, h fuel rest hfuel]
  rfl

end Reads

/-! ## §5. Objects. -/

/-- No name begins with a closing brace. -/
theorem readMembers_close (fuel : Nat) (rest : List Char) :
    readMembers fuel ('\x7d' :: rest) = none := by
  cases fuel with
  | zero => rfl
  | succ fuel =>
    rw [readMembers_succ, membersStep, skip_cons rfl]
    rfl

theorem ReadsName.quoted {bs cs bs' : List Char} {name : Option String} (hbs : Blanks bs)
    (h : ReadsText cs name) (hbs' : Blanks bs') :
    ReadsName (bs ++ '"' :: (cs ++ '"' :: (bs' ++ [':']))) name := by
  intro rest
  rw [List.append_assoc, skip_append hbs, List.cons_append, skip_cons rfl, List.append_assoc,
    List.cons_append, readName, h]
  simp only [bind, Option.bind]
  rw [List.append_assoc, skip_append hbs']
  rfl

namespace ReadsMembers

theorem one {cs cs' bs : List Char} {name : Option String} {value : Json}
    (hname : ReadsName cs name) (h : Reads cs' value) (hbs : Blanks bs) :
    ReadsMembers (cs ++ (cs' ++ (bs ++ ['\x7d']))) [(name, value)] := by
  intro fuel rest hfuel
  simp only [List.length_append, List.length_singleton] at hfuel
  obtain ⟨fuel, rfl⟩ : ∃ n, fuel = n + 1 := ⟨fuel - 1, by omega⟩
  rw [List.append_assoc, List.append_assoc, List.append_assoc, List.singleton_append,
    readMembers_succ, membersStep, hname]
  simp only [bind, Option.bind]
  rw [h.before_mark hbs (by decide) (by omega)]
  simp only [skip_append hbs]
  rw [skip_cons rfl]
  rfl

theorem more {cs cs' bs cs'' : List Char} {name : Option String} {value : Json}
    {members : List (Option String × Json)} (hname : ReadsName cs name) (h : Reads cs' value)
    (hbs : Blanks bs) (hmembers : ReadsMembers cs'' members) :
    ReadsMembers (cs ++ (cs' ++ (bs ++ ',' :: cs''))) ((name, value) :: members) := by
  intro fuel rest hfuel
  simp only [List.length_append, List.length_cons] at hfuel
  obtain ⟨fuel, rfl⟩ : ∃ n, fuel = n + 1 := ⟨fuel - 1, by omega⟩
  rw [List.append_assoc, List.append_assoc, List.append_assoc, List.cons_append,
    readMembers_succ, membersStep, hname]
  simp only [bind, Option.bind]
  rw [h.before_mark hbs (by decide) (by omega)]
  simp only [skip_append hbs]
  rw [skip_cons rfl]
  simp only [↓Char.isValue]
  rw [hmembers fuel rest (by omega)]
  rfl

end ReadsMembers

namespace Reads

theorem obj_nil {bs : List Char} (hbs : Blanks bs) :
    Reads ('\x7b' :: (bs ++ ['\x7d'])) (.obj []) := by
  refine of_succ fun fuel rest _ _ => readObject_close fuel ?_
  rw [List.append_assoc, skip_append hbs]
  rfl

/-- **An object is read when its members are.** -/
theorem obj {cs : List Char} {members : List (Option String × Json)}
    (h : ReadsMembers cs members) : Reads ('\x7b' :: cs) (.obj members) := by
  refine of_succ fun fuel rest hfuel _ => ?_
  have hopen : ∀ more, skip (cs ++ rest) ≠ '\x7d' :: more := by
    intro more hmore
    have hread := h fuel rest hfuel
    rw [← readMembers_skip, hmore, readMembers_close] at hread
    cases hread
  rw [readValue_brace, readObject_members fuel hopen, h fuel rest hfuel]
  rfl

/-! ## §6. Whole texts. -/

/-- **A text that is read as a value, with blanks behind it, is that value.** -/
theorem parse?_eq {cs bs : List Char} {j : Json} (h : Reads cs j) (hbs : Blanks bs) :
    parse? (String.ofList (cs ++ bs)) = some j := by
  have hread := h ((cs ++ bs).length + 1) bs (by rw [List.length_append]; omega)
    (List.append_nil bs ▸ stops_blanks_append hbs stops_nil)
  have hend : skip bs = [] := by
    rw [← List.append_nil bs, skip_append hbs]
    rfl
  unfold parse?
  rw [String.toList_ofList]
  simp only [bind, Option.bind, hread, hend]
  rfl

end Reads

end MerkleAirdrop.Json
