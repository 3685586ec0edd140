/-
  MerkleAirdrop.Proofs.Record.Presentation
  ────────────────────────────────────────
  **HOW THE JSON OF A VALUE IS PRESENTED DOES NOT MATTER; WHICH MEMBERS IT HAS
  DOES.**

      Schema.parse?_of_perm          the members in any order, among any others
      Schema.parse?_of_items         the members' values alone, in order
      Schema.parse?_of_count         a known member missing or repeated
      Schema.parse?_of_length        an array of another length
      SchemaType.json_presentation   the four together, for the types that have
                                     fields

  The members are looked up by name once all of them have been read, so no
  order of reading has to be followed: what decides is how often each known
  name occurs.
-/
import MerkleAirdrop.Proofs.Record.Json

namespace MerkleAirdrop

/-! ## §1. Objects and arrays. -/

namespace Layout

variable {layout : Layout}

/-- A member that is missing or repeated is refused, whatever else there is. -/
theorem valuesOfJson?_of_count {members : List (Option String × Json)} {name : String}
    (hname : name ∈ layout.memberNames) (hcount : (members.map Prod.fst).count (some name) ≠ 1) :
    layout.valuesOfJson? (.obj members) = none := by
  obtain ⟨field, hfield, rfl⟩ := List.mem_map.1 hname
  show (namedMembers? members).bind _ = none
  cases hnamed : namedMembers? members with
  | none => rfl
  | some named =>
    -- all names are characters, and the name is counted among them
    rw [namedMembers?_eq_some_iff.1 hnamed, List.map_map] at hcount
    have hcount' : (named.map Prod.fst).count field.memberName ≠ 1 := by
      rwa [← List.count_map_of_injective _ _ (Option.some_injective String), List.map_map]
    refine Option.mapM_eq_none_of_mem hfield ?_
    rw [onlyMember?_eq_none hcount']
    rfl

/-- An array that is shorter or longer is refused. -/
theorem valuesOfJson?_of_length {items : List Json}
    (hlength : items.length ≠ layout.memberNames.length) :
    layout.valuesOfJson? (.arr items) = none := by
  rw [memberNames, List.length_map] at hlength
  exact if_neg hlength

end Layout

/-! ## §2. Types with fields. -/

namespace Schema

variable {α : Type} [Schema α]

/-- The members of a value, in field order. -/
def members (a : α) : List (String × Json) := (layout α).members (toValues a)

/-- The names of the members of a type. -/
def memberNames (α : Type) [Schema α] : List String := (layout α).memberNames

theorem parse?_of_textOf {text : String} {j : Json} (h : Json.TextOf text j) :
    (parse? text : Option α) = ofJson? j := by
  unfold parse?
  rw [h.parse?_eq]
  rfl

section

variable (hne : (layout α).fields ≠ []) {text : String}

include hne

/-- Where no values are read, no value is. -/
theorem ofJson?_eq_none {j : Json} (h : (layout α).valuesOfJson? j = none) :
    (ofJson? j : Option α) = none := by
  unfold ofJson?
  rw [List.isEmpty_eq_false_iff.2 hne, if_neg Bool.false_ne_true, h]
  rfl

/-- **A known member that is missing or repeated is refused.** -/
theorem parse?_of_count {members : List (Option String × Json)} {name : String}
    (h : Json.TextOf text (.obj members)) (hname : name ∈ memberNames α)
    (hcount : (members.map Prod.fst).count (some name) ≠ 1) : (parse? text : Option α) = none := by
  rw [parse?_of_textOf h]
  exact ofJson?_eq_none hne (Layout.valuesOfJson?_of_count hname hcount)

/-- **An array that is shorter or longer is refused.** -/
theorem parse?_of_length {items : List Json} (h : Json.TextOf text (.arr items))
    (hlength : items.length ≠ (memberNames α).length) : (parse? text : Option α) = none := by
  rw [parse?_of_textOf h]
  exact ofJson?_eq_none hne (Layout.valuesOfJson?_of_length hlength)

variable [LawfulSchema α] {a : α}

/-- **The members are read in any order and among members of other names.** -/
theorem parse?_of_perm {present others : List (String × Json)}
    (h : Json.TextOf text (.object present)) (hperm : present.Perm (members a ++ others))
    (hothers : ∀ m ∈ others, m.1 ∉ memberNames α) : parse? text = some a := by
  rw [parse?_of_textOf h]
  exact ofJson?_of_values hne
    (Layout.valuesOfJson?_of_perm (LawfulSchema.holds a) LawfulSchema.nodup hperm hothers)

/-- **The members' values are read from an array of them.** -/
theorem parse?_of_items (h : Json.TextOf text (.arr ((members a).map Prod.snd))) :
    parse? text = some a := by
  have hholds := LawfulSchema.holds a
  rw [members, Layout.map_snd_members (Nat.le_of_eq hholds.length_eq.symm)] at h
  rw [parse?_of_textOf h]
  exact ofJson?_of_values hne (Layout.valuesOfJson?_arr hholds)

end

end Schema

/-! ## §3. The types that have fields. -/

namespace SchemaType

/-- The types that have fields. -/
def withFields : List SchemaType := [
  .record .distributor,
  .record .claimStatus,
  .solCustody,
  .record .newDistributor,
  .record .newClaim,
  .record .withdrawCustodySol]

theorem fields_ne_nil_iff {t : SchemaType} :
    (Schema.layout t.Carrier).fields ≠ [] ↔ t ∈ withFields := by
  rcases t with t | _
  · cases t <;> decide
  · decide

/-- **The order and the presentation of members do not matter.**

In any text of an object that has the members of a value, in any order and
among any members of other names, the value is read; and so it is in any text
of the array of the members' values.  An object in which a known name does not
occur exactly once is refused, and so is an array of another length.

A text of an object is any text that JSON allows for it: blanks stand where
they may, and texts, names too, are escaped as they may be.  A name is a text
of characters; the values of other members may hold half of a surrogate pair
anywhere. -/
theorem json_presentation (t : SchemaType) (ht : t ∈ withFields) :
    (∀ (r : t.Carrier) (text : String) (present others : List (String × Json)),
      Json.TextOf text (.object present) → present.Perm (Schema.members r ++ others) →
      (∀ m ∈ others, m.1 ∉ Schema.memberNames t.Carrier) → Schema.parse? text = some r) ∧
    (∀ (r : t.Carrier) (text : String),
      Json.TextOf text (.arr ((Schema.members r).map Prod.snd)) → Schema.parse? text = some r) ∧
    (∀ (text : String) (present : List (Option String × Json)) (name : String),
      Json.TextOf text (.obj present) → name ∈ Schema.memberNames t.Carrier →
      (present.map Prod.fst).count (some name) ≠ 1 →
      (Schema.parse? text : Option t.Carrier) = none) ∧
    ∀ (text : String) (items : List Json), Json.TextOf text (.arr items) →
      items.length ≠ (Schema.memberNames t.Carrier).length →
      (Schema.parse? text : Option t.Carrier) = none := by
  have hne := fields_ne_nil_iff.2 ht
  refine ⟨?_, ?_, ?_, ?_⟩
  · intro r text present others h hperm hothers
    exact Schema.parse?_of_perm hne h hperm hothers
  · intro r text h
    exact Schema.parse?_of_items hne h
  · intro text present name h hname hcount
    exact Schema.parse?_of_count hne h hname hcount
  · intro text items h hlength
    exact Schema.parse?_of_length hne h hlength

/-- A custody is read whatever stands between its members, and from the array of
their values; it is refused with a member too few or one twice, and from a
shorter array. -/
theorem json_presentation_custody :
    Schema.parse? (Json.object [
      ("lamports", .text "5"),
      ("note", .arr [.object [("lamports", .null)], .text "\x7d"]),
      ("owner", .text (Address.text Program.system))]).pretty
        = some (⟨Program.system, 5⟩ : SolCustody) ∧
    Schema.parse? (Json.arr [.text (Address.text Program.system), .text "5"]).pretty
        = some (⟨Program.system, 5⟩ : SolCustody) ∧
    (Schema.parse? (Json.object [("owner", .text (Address.text Program.system))]).compact
        : Option SolCustody) = none ∧
    (Schema.parse? (Json.object [
      ("owner", .text (Address.text Program.system)),
      ("lamports", .text "5"),
      ("lamports", .text "5")]).compact : Option SolCustody) = none ∧
    (Schema.parse? (Json.arr [.text (Address.text Program.system)]).compact
        : Option SolCustody) = none := by
  have hnames : Schema.memberNames SolCustody = ["owner", "lamports"] := by decide +kernel
  have hmembers : Schema.members (⟨Program.system, 5⟩ : SolCustody)
      = [("owner", .text (Address.text Program.system)), ("lamports", .text "5")] := by
    show Layout.members _ _ = _
    rw [Layout.members_eq_zip]
    show List.zip (Schema.memberNames SolCustody) _ = _
    rw [hnames]
    rfl
  have hlamports : "lamports" ∈ Schema.memberNames SolCustody := by
    rw [hnames]
    decide
  have hnote : "note" ∉ Schema.memberNames SolCustody := by
    rw [hnames]
    decide
  obtain ⟨hobject, harray, hcount, hlength⟩ := json_presentation .solCustody (by decide)
  refine ⟨?_, ?_, ?_, ?_, ?_⟩
  · refine hobject ⟨Program.system, 5⟩ _ _
      [("note", .arr [.object [("lamports", .null)], .text "\x7d"])]
      (Json.textOf_pretty (by simp)) ?_ (List.forall_mem_singleton.2 hnote)
    show List.Perm _ (Schema.members (⟨Program.system, 5⟩ : SolCustody) ++ _)
    rw [hmembers]
    exact @List.perm_append_comm _ [_, _] [_]
  · refine harray ⟨Program.system, 5⟩ _ ?_
    show Json.TextOf _ (.arr ((Schema.members (⟨Program.system, 5⟩ : SolCustody)).map Prod.snd))
    rw [hmembers]
    exact Json.textOf_pretty (by simp)
  · exact hcount _ _ "lamports" (Json.textOf_compact (by simp)) hlamports (by decide)
  · exact hcount _ _ "lamports" (Json.textOf_compact (by simp)) hlamports (by decide)
  · refine hlength _ _ (Json.textOf_compact (by simp)) ?_
    show _ ≠ (Schema.memberNames SolCustody).length
    rw [hnames]
    decide

end SchemaType

end MerkleAirdrop
