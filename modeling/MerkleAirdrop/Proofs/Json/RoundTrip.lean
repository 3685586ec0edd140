/-
  MerkleAirdrop.Proofs.Json.RoundTrip
  ───────────────────────────────────
  **VALUES ARE READ BACK FROM THEIR TEXT, HOWEVER IT IS SPREAD OUT.**

      Json.spells_chars     what is written of a proper value spells it, in
                            every style whose gaps are blanks
      Json.parse?_compact   so it is read back from one line
      Json.parse?_pretty    and from several lines

  A value is proper if all its texts stand for characters and the fractions of
  its numbers are made of digits.  A text that stands for no characters is
  written as one mark, and no reader could know which text it was.
-/
import MerkleAirdrop.Proofs.Json.Complete
import MerkleAirdrop.Proofs.Numeral
import Mathlib.Tactic.IntervalCases

namespace MerkleAirdrop.Json

open Numeral (toList_toString toList_toString_negSucc exists_toDigits_eq_cons areDigits_digitChars
  writesDigits_toDigits)

/-! ## §1. Proper values. -/

/-- The text of the value says all about it. -/
inductive Proper : Json → Prop
  | null : Proper .null
  | bool (b : Bool) : Proper (.bool b)
  | num {n : JsonNumber} (h : ∀ d ∈ n.fraction, d < 10) : Proper (.num n)
  | str (s : String) : Proper (.str (some s))
  | arr {items : List Json} (h : ∀ item ∈ items, Proper item) : Proper (.arr items)
  | obj {members : List (Option String × Json)} (hnames : ∀ m ∈ members, m.1.isSome = true)
      (h : ∀ m ∈ members, Proper m.2) : Proper (.obj members)

@[simp] theorem proper_null : Proper .null := .null

@[simp] theorem proper_bool (b : Bool) : Proper (.bool b) := .bool b

@[simp] theorem proper_ofNat (n : Nat) : (ofNat n).Proper :=
  .num fun _ hd => absurd hd List.not_mem_nil

@[simp] theorem proper_text (s : String) : (text s).Proper := .str s

/-- An array is proper if its items are. -/
@[simp] theorem proper_arr_iff {items : List Json} :
    (arr items).Proper ↔ ∀ item ∈ items, item.Proper := by
  refine ⟨fun h => ?_, .arr⟩
  cases h with
  | arr h => exact h

/-- Members of given names are proper if their values are. -/
@[simp] theorem proper_object_iff {members : List (String × Json)} :
    (object members).Proper ↔ ∀ m ∈ members, m.2.Proper := by
  constructor
  · intro h m hm
    cases h with
    | obj _ h => exact h (some m.1, m.2) (List.mem_map_of_mem hm)
  · intro h
    refine .obj ?_ ?_ <;> intro m hm <;> obtain ⟨m', hm', rfl⟩ := List.mem_map.1 hm
    · rfl
    · exact h m' hm'

/-! ## §2. Styles. -/

/-- All that a style puts between the marks is blank. -/
structure Style.Blank (style : Style) : Prop where
  gap : ∀ level, Blanks (style.gap level)
  colonGap : Blanks style.colonGap

theorem blanks_nil : Blanks [] := fun _ hc => absurd hc List.not_mem_nil

theorem Style.blank_oneLine : oneLine.Blank := ⟨fun _ => blanks_nil, blanks_nil⟩

theorem Style.blank_indented : indented.Blank := by
  refine ⟨fun level c hc => ?_, fun c hc => ?_⟩
  · rcases List.mem_cons.1 hc with rfl | hc
    · rfl
    · rw [(List.mem_replicate.1 hc).2]
      rfl
  · rw [List.mem_singleton.1 hc]
    rfl

/-! ## §3. Texts. -/

/-- The four digits of an escape write its code. -/
theorem writesDigits_hexDigits {n : Nat} (h : n < 65536) :
    Numeral.WritesDigits 16 (hexDigits n) n := by
  refine ⟨List.cons_ne_nil _ _, [n / 4096 % 16, n / 256 % 16, n / 16 % 16, n % 16],
    areDigits_digitChars ?_, ?_⟩
  · simp only [List.forall_mem_cons]
    exact ⟨by omega, by omega, by omega, by omega, List.forall_mem_nil _⟩
  · simp only [List.reverse_cons, List.reverse_nil, List.nil_append, List.cons_append,
      Nat.ofDigits_cons, Nat.ofDigits_nil]
    omega

/-- **A character is spelled as it is written, escaped or not.** -/
theorem spellsCode_escaped (c : Char) : SpellsCode (escaped c) c.toNat := by
  unfold escaped
  split
  -- seven characters have a letter; what is left is a control character or
  -- stands for itself
  case h_8 hquote hslash _ _ _ _ _ =>
    split
    next hcontrol => exact .digits rfl (writesDigits_hexDigits (by omega))
    next hplain => exact .plain hquote hslash (Nat.le_of_not_lt hplain)
  all_goals exact .letter (by decide)

/-- Every text is spelled by its characters as they are written. -/
theorem spellsText_escaped (s : String) : SpellsText (s.toList.flatMap escaped) (some s) := by
  refine ⟨s.toList.map Char.toNat, ?_, ?_⟩
  · induction s.toList with
    | nil => exact .nil
    | cons c cs ih => exact .cons (spellsCode_escaped c) ih
  · induction s.toList with
    | nil => exact .nil
    | cons c cs ih => exact .one c ih

theorem spellsName_quoted {bs : List Char} (hbs : Blanks bs) (s : String) :
    SpellsName (bs ++ quoted (some s)) (some s) := by
  have hname := SpellsName.quoted hbs (spellsText_escaped s) blanks_nil
  simpa [quoted] using hname

/-! ## §4. Numbers. -/

theorem head_toDigits_ne_zero {n : Nat} (hn : n ≠ 0) : (Nat.toDigits 10 n).head? ≠ some '0' := by
  induction n using Nat.strongRecOn with
  | ind n ih =>
    rw [Nat.toDigits_eq_if (by decide)]
    split
    next hlow =>
      -- one digit
      interval_cases n
      · exact absurd rfl hn
      all_goals decide
    next hhigh =>
      -- the digits in front of the last one begin it
      have hfront := ih (n / 10) (by omega) (by omega)
      obtain ⟨c, cs, hcons, _⟩ := exists_toDigits_eq_cons (n / 10)
      rw [hcons] at hfront ⊢
      exact hfront

theorem spellsWhole_toDigits (n : Nat) : SpellsWhole (Nat.toDigits 10 n) n := by
  refine ⟨writesDigits_toDigits (by decide) n, fun hzero => ?_⟩
  by_cases hn : n = 0
  · rw [hn]
    rfl
  · exact absurd hzero (head_toDigits_ne_zero hn)

theorem spellsFraction_fractionChars {ds : List Nat} (hds : ∀ d ∈ ds, d < 10) :
    SpellsFraction (fractionChars ds) ds := by
  unfold fractionChars
  split
  next hnil =>
    rw [hnil]
    exact .none
  next hne => exact .point hne (areDigits_digitChars hds)

theorem spellsExponent_exponentChars (e : Option Int) : SpellsExponent (exponentChars e) e := by
  match e with
  | none => exact .none
  | some (.ofNat n) =>
    show SpellsExponent ('e' :: (toString n).toList) _
    rw [toList_toString]
    exact .bare (.inl rfl) (writesDigits_toDigits (by decide) n)
  | some (.negSucc n) =>
    show SpellsExponent ('e' :: (toString (Int.negSucc n)).toList) _
    rw [toList_toString_negSucc]
    exact .minus (.inl rfl) (writesDigits_toDigits (by decide) (n + 1))

/-- **A number made of digits is spelled by its characters.** -/
theorem spellsNumber_numberChars {n : JsonNumber} (h : ∀ d ∈ n.fraction, d < 10) :
    SpellsNumber (numberChars n) n := by
  unfold numberChars
  rw [toList_toString, List.append_assoc, List.append_assoc]
  exact .mk n.negative (spellsWhole_toDigits n.whole) (spellsFraction_fractionChars h)
    (spellsExponent_exponentChars n.exponent)

/-! ## §5. Values. -/

section

variable {style : Style} (hstyle : style.Blank)

include hstyle

/-- What is written of items spells them, up to the closing bracket. -/
theorem exists_spellsItems (level : Nat) (rest : List Json) :
    ∀ {bs cs : List Char} {item : Json}, Blanks bs → Spells cs item →
      (∀ next ∈ rest, Spells (chars style (level + 1) next) next) →
      ∃ cs', bs ++ (cs ++ itemChars style level rest) = cs' ++ [']'] ∧
        SpellsItems cs' (item :: rest) := by
  -- what stands in front of an item, its gap and its characters, is threaded
  -- through the induction
  induction rest with
  | nil =>
    intro bs cs item hbs hitem _
    exact ⟨_, by simp [itemChars], .one hbs hitem (hstyle.gap level)⟩
  | cons next rest ih =>
    intro bs cs item hbs hitem hrest
    rw [List.forall_mem_cons] at hrest
    obtain ⟨cs', hcs', hitems⟩ := ih (hstyle.gap (level + 1)) hrest.1 hrest.2
    refine ⟨_, ?_, .more hbs hitem blanks_nil hitems⟩
    rw [itemChars]
    simp [hcs']

/-- What is written of members spells them, up to the closing brace. -/
theorem exists_spellsMembers (level : Nat) (rest : List (Option String × Json)) :
    ∀ {ns cs : List Char} {name : Option String} {value : Json}, SpellsName ns name →
      Spells cs value → (∀ m ∈ rest, m.1.isSome = true) →
      (∀ m ∈ rest, Spells (chars style (level + 1) m.2) m.2) →
      ∃ cs', ns ++ ':' :: (style.colonGap ++ (cs ++ memberChars style level rest))
          = cs' ++ ['\x7d'] ∧
        SpellsMembers cs' ((name, value) :: rest) := by
  induction rest with
  | nil =>
    intro ns cs name value hname hvalue _ _
    exact ⟨_, by simp [memberChars], .one hname hstyle.colonGap hvalue (hstyle.gap level)⟩
  | cons next rest ih =>
    intro ns cs name value hname hvalue hnames hrest
    rw [List.forall_mem_cons] at hnames hrest
    obtain ⟨name', value'⟩ := next
    obtain ⟨s, rfl⟩ := Option.isSome_iff_exists.1 hnames.1
    obtain ⟨cs', hcs', hmembers⟩ := ih (spellsName_quoted (hstyle.gap (level + 1)) s) hrest.1
      hnames.2 hrest.2
    refine ⟨_, ?_, .more hname hstyle.colonGap hvalue blanks_nil hmembers⟩
    rw [memberChars]
    simpa using hcs'

/-- **A proper value is spelled by its characters, in every style.** -/
theorem spells_chars {j : Json} (h : j.Proper) : ∀ level, Spells (chars style level j) j := by
  induction h with
  | null =>
    intro level
    exact .null
  | bool b =>
    intro level
    have hspells := Spells.bool b
    cases b <;> exact hspells
  | num hn =>
    intro level
    exact .num (spellsNumber_numberChars hn)
  | str s =>
    intro level
    exact .str (spellsText_escaped s)
  | @arr items _ ih =>
    intro level
    cases items with
    | nil => exact .arr_nil blanks_nil
    | cons item rest =>
      rw [List.forall_mem_cons] at ih
      obtain ⟨cs, hcs, hitems⟩ := exists_spellsItems hstyle level rest (hstyle.gap (level + 1))
        (ih.1 (level + 1)) fun next hnext => ih.2 next hnext (level + 1)
      rw [chars]
      simpa [hcs] using Spells.arr hitems
  | @obj members hnames _ ih =>
    intro level
    cases members with
    | nil => exact .obj_nil blanks_nil
    | cons m rest =>
      rw [List.forall_mem_cons] at hnames ih
      obtain ⟨name, value⟩ := m
      obtain ⟨s, rfl⟩ := Option.isSome_iff_exists.1 hnames.1
      obtain ⟨cs, hcs, hmembers⟩ := exists_spellsMembers hstyle level rest
        (spellsName_quoted (hstyle.gap (level + 1)) s) (ih.1 (level + 1)) hnames.2
        fun next hnext => ih.2 next hnext (level + 1)
      rw [chars]
      have hspells := Spells.obj hmembers
      rw [← hcs] at hspells
      simpa using hspells

/-- What is written of a proper value is a text of it, with blanks behind it. -/
theorem textOf_chars {j : Json} (h : j.Proper) {bs : List Char} (hbs : Blanks bs) :
    TextOf (String.ofList (chars style 0 j ++ bs)) j :=
  .mk blanks_nil (spells_chars hstyle h 0) hbs

end

/-! ## §6. Whole texts. -/

section

variable {j : Json} (h : j.Proper)

include h

theorem textOf_compact : TextOf j.compact j := by
  have htext := textOf_chars Style.blank_oneLine h blanks_nil
  rwa [List.append_nil] at htext

theorem textOf_pretty : TextOf j.pretty j := by
  have htext := textOf_chars Style.blank_indented h blanks_nil
  rwa [List.append_nil] at htext

/-- **A proper value is read back from its text on one line.** -/
theorem parse?_compact : parse? j.compact = some j := (textOf_compact h).parse?_eq

/-- **A proper value is read back from its text over lines.** -/
theorem parse?_pretty : parse? j.pretty = some j := (textOf_pretty h).parse?_eq

end

end MerkleAirdrop.Json
