/-
  MerkleAirdrop.Proofs.Schema.Json
  ────────────────────────────────
  **TYPES WITH FIELDS ARE READ BACK FROM THEIR JSON.**

      Kind.ofJson?_toJson             k.Holds v → k.ofJson? v.toJson = some v
      Layout.valuesOfJson?_of_perm    values are read from members in any
                                      order and among members of other names
      Schema.ofJson?_toJson           every value of a type whose members have
                                      different names
      Schema.parse?_toJson            the same from its text in either style

  A vector may hold any number of elements here: JSON has no count in front
  of an array, so nothing is too long to be written.
-/
import MerkleAirdrop.Proofs.Base58
import MerkleAirdrop.Proofs.Json.RoundTrip
import MerkleAirdrop.Proofs.Layout.Take
import MerkleAirdrop.Schema.Json

namespace MerkleAirdrop

/-! ## §1. Field values. -/

theorem Value.listToJson_eq_map (items : List Value) :
    Value.listToJson items = items.map Value.toJson := by
  induction items with
  | nil => rfl
  | cons item items ih => rw [Value.listToJson, ih, List.map_cons]

mutual

theorem Value.proper_toJson : ∀ v : Value, v.toJson.Proper
  | .u8 v => Json.proper_ofNat v.toNat
  | .u64 v => Json.proper_text (Numeral.writeU64 v)
  | .i64 v => Json.proper_text (Numeral.writeI64 v)
  | .bool v => .bool v
  | .bytes v => by simp [Value.toJson]
  | .pubkey v => Json.proper_text (Address.text v)
  | .list items => .arr (Value.proper_listToJson items)

theorem Value.proper_listToJson : ∀ items : List Value, ∀ j ∈ Value.listToJson items, j.Proper
  | [] => fun _ hj => absurd hj List.not_mem_nil
  | item :: items => by
    rw [Value.listToJson, List.forall_mem_cons]
    exact ⟨item.proper_toJson, Value.proper_listToJson items⟩

end

theorem Json.asByte?_ofNat (b : UInt8) : (Json.ofNat b.toNat).asByte? = some b := by
  show (if b.toNat < 256 then some (UInt8.ofNat b.toNat) else none) = some b
  rw [if_pos b.toNat_lt, UInt8.ofNat_toNat]

namespace Kind

/-- The value is of the kind in all its parts; a vector may be of any
length. -/
def Holds : Kind → Value → Prop
  | .u8, .u8 _ | .u64, .u64 _ | .i64, .i64 _ | .bool, .bool _ | .pubkey, .pubkey _ => True
  | .bytes length, .bytes v => v.length = length.toNat
  | .array element length, .list items =>
    items.length = length.toNat ∧ ∀ item ∈ items, element.Holds item
  | .vec element, .list items => ∀ item ∈ items, element.Holds item
  | _, _ => False

/-- **A value is read back from its JSON.** -/
theorem ofJson?_toJson (k : Kind) : ∀ {v : Value}, k.Holds v → k.ofJson? v.toJson = some v := by
  induction k with
  | u8 =>
    intro v h
    cases v with
    | u8 b =>
      rw [Value.toJson, ofJson?, Json.asByte?_ofNat]
      rfl
    | _ => cases h
  | u64 =>
    intro v h
    cases v with
    | u64 n =>
      show (Numeral.readU64 (Numeral.writeU64 n)).toOption.bind _ = _
      rw [Numeral.readU64_writeU64]
      rfl
    | _ => cases h
  | i64 =>
    intro v h
    cases v with
    | i64 n =>
      show (Numeral.readI64 (Numeral.writeI64 n)).toOption.bind _ = _
      rw [Numeral.readI64_writeI64]
      rfl
    | _ => cases h
  | bool =>
    intro v h
    cases v with
    | bool b => rfl
    | _ => cases h
  | bytes length =>
    intro v h
    cases v with
    | bytes bs =>
      have hread : (bs.map fun b => Json.ofNat b.toNat).mapM Json.asByte? = some bs :=
        mapM_map_eq_some fun b _ => Json.asByte?_ofNat b
      show (if (bs.map fun b => Json.ofNat b.toNat).length = length.toNat then _ else _) = _
      rw [if_pos (by rw [List.length_map]; exact h), hread]
      rfl
    | _ => cases h
  | pubkey =>
    intro v h
    cases v with
    | pubkey address =>
      show (Address.parse? (Address.text address)).bind _ = _
      rw [Address.parse?_text]
      rfl
    | _ => cases h
  | array element length ih =>
    intro v h
    cases v with
    | list items =>
      have hread := mapM_map_eq_some fun item hitem => ih (h.2 item hitem)
      show (if (Value.listToJson items).length = length.toNat then _ else _) = _
      rw [Value.listToJson_eq_map, if_pos (by rw [List.length_map]; exact h.1), hread]
      rfl
    | _ => cases h
  | vec element ih =>
    intro v h
    cases v with
    | list items =>
      have hread := mapM_map_eq_some fun item hitem => ih (h item hitem)
      show Value.list <$> (Value.listToJson items).mapM element.ofJson? = _
      rw [Value.listToJson_eq_map, hread]
      rfl
    | _ => cases h

end Kind

/-! ## §2. Members. -/

/-- Members have names if these are what they are named. -/
theorem namedMembers?_eq_some_iff {members : List (Option String × Json)}
    {named : List (String × Json)} : namedMembers? members = some named ↔
      members = named.map fun (name, value) => (some name, value) := by
  have hone : ∀ (m : Option String × Json) (p : String × Json),
      m.1.map (·, m.2) = some p ↔ m = (some p.1, p.2) := by
    rintro ⟨_ | name, value⟩ ⟨name', value'⟩ <;> simp
  show members.mapM (fun m => m.1.map (·, m.2)) = some named ↔ _
  rw [Option.mapM_eq_some_iff]
  simp only [hone]
  rw [← List.forall₂_map_right_iff, List.forall₂_eq_eq_eq]

theorem namedMembers?_object (members : List (String × Json)) :
    namedMembers? (members.map fun (name, value) => (some name, value)) = some members :=
  namedMembers?_eq_some_iff.2 rfl

/-- Where all names differ, a name has one member. -/
theorem filter_eq_singleton {members : List (String × Json)} {name : String} {value : Json}
    (hnodup : (members.map Prod.fst).Nodup) (h : (name, value) ∈ members) :
    members.filter (·.1 == name) = [(name, value)] := by
  induction members with
  | nil => cases h
  | cons m members ih =>
    rw [List.map_cons, List.nodup_cons] at hnodup
    rcases List.mem_cons.1 h with rfl | h
    · -- no member behind it has its name
      have hrest : members.filter (·.1 == name) = [] := by
        rw [List.filter_eq_nil_iff]
        intro m hm hname
        exact hnodup.1 (List.mem_map.2 ⟨m, hm, eq_of_beq hname⟩)
      rw [List.filter_cons, if_pos (beq_self_eq_true name), hrest]
    · have hne : m.1 ≠ name := fun hname =>
        hnodup.1 (List.mem_map.2 ⟨(name, value), h, hname.symm⟩)
      rw [List.filter_cons_of_neg (by simpa using hne), ih hnodup.2 h]

/-- **A member is found in any order and among any members of other names.** -/
theorem onlyMember?_of_perm {members known others : List (String × Json)} {name : String}
    {value : Json} (hperm : members.Perm (known ++ others)) (hnodup : (known.map Prod.fst).Nodup)
    (h : (name, value) ∈ known) (hothers : ∀ m ∈ others, m.1 ≠ name) :
    onlyMember? name members = some value := by
  -- members of other names are passed over, so only the order is left, and one
  -- member has none
  have hrest : others.filter (·.1 == name) = [] := by
    rw [List.filter_eq_nil_iff]
    intro m hm hname
    exact hothers m hm (eq_of_beq hname)
  have hfilter := hperm.filter (·.1 == name)
  rw [List.filter_append, filter_eq_singleton hnodup h, hrest, List.append_nil] at hfilter
  unfold onlyMember?
  rw [List.perm_singleton.1 hfilter]

/-- A name that no member or more than one has is refused. -/
theorem onlyMember?_eq_none {members : List (String × Json)} {name : String}
    (h : (members.map Prod.fst).count name ≠ 1) : onlyMember? name members = none := by
  have hcount : (members.map Prod.fst).count name = (members.filter (·.1 == name)).length := by
    rw [List.count, List.countP_map, List.countP_eq_length_filter]
    rfl
  rw [hcount] at h
  unfold onlyMember?
  split
  next hone =>
    rw [hone] at h
    exact absurd rfl h
  next => rfl

namespace Layout

/-- There is one value for each field, of the field's kind. -/
def Holds (layout : Layout) (values : List Value) : Prop :=
  List.Forall₂ (fun field value => field.kind.Holds value) layout.fields values

/-- The names of the members, in field order. -/
def memberNames (layout : Layout) : List String := layout.fields.map Field.memberName

/-- The members that hold one value for each field, in field order. -/
def members (layout : Layout) (values : List Value) : List (String × Json) :=
  (layout.fields.zip values).map fun (field, value) => (field.memberName, value.toJson)

section

variable {layout : Layout} {values : List Value}

theorem members_eq_zip :
    layout.members values = layout.memberNames.zip (values.map Value.toJson) := by
  unfold members memberNames
  rw [List.zip_map]
  rfl

theorem map_fst_members (h : layout.fields.length ≤ values.length) :
    (layout.members values).map Prod.fst = layout.memberNames := by
  rw [members_eq_zip, List.map_fst_zip (by rwa [memberNames, List.length_map, List.length_map])]

theorem map_snd_members (h : values.length ≤ layout.fields.length) :
    (layout.members values).map Prod.snd = values.map Value.toJson := by
  rw [members_eq_zip, List.map_snd_zip (by rwa [memberNames, List.length_map, List.length_map])]

/-- **Values of the fields' kinds are read from one member for each**, in any
order and among members of any other names. -/
theorem valuesOfJson?_of_perm {members others : List (String × Json)} (h : layout.Holds values)
    (hnodup : layout.memberNames.Nodup) (hperm : members.Perm (layout.members values ++ others))
    (hothers : ∀ m ∈ others, m.1 ∉ layout.memberNames) :
    layout.valuesOfJson? (.object members) = some values := by
  rw [← map_fst_members (Nat.le_of_eq h.length_eq)] at hnodup
  show (namedMembers? _).bind _ = _
  rw [namedMembers?_object]
  refine Option.mapM_eq_some_iff.2 (List.forall₂_iff_zip.2 ⟨h.length_eq, ?_⟩)
  intro field value hmem
  have hholds : field.kind.Holds value := (List.forall₂_iff_zip.1 h).2 hmem
  have hmember : onlyMember? field.memberName members = some value.toJson := by
    refine onlyMember?_of_perm hperm hnodup (List.mem_map.2 ⟨_, hmem, rfl⟩) fun m hm hname => ?_
    exact hothers m hm (hname ▸ List.mem_map_of_mem (List.of_mem_zip hmem).1)
  rw [hmember]
  exact field.kind.ofJson?_toJson hholds

/-- **Values of the fields' kinds are read from an array of them.** -/
theorem valuesOfJson?_arr (h : layout.Holds values) :
    layout.valuesOfJson? (.arr (values.map Value.toJson)) = some values := by
  have hread : ∀ {fields : List Field} {values : List Value}, Holds ⟨fields⟩ values →
      (fields.zip (values.map Value.toJson)).mapM (fun p => p.1.kind.ofJson? p.2)
        = some values := by
    intro fields values h
    unfold Holds at h
    dsimp only at h
    induction h with
    | nil => rfl
    | cons hvalue _ ih =>
      rw [List.map_cons, List.zip_cons_cons, List.mapM_cons, ih, Kind.ofJson?_toJson _ hvalue]
      rfl
  show (if (values.map Value.toJson).length = layout.fields.length then _ else none) = _
  rw [if_pos (by rw [List.length_map, h.length_eq])]
  exact hread h

end

end Layout

/-! ## §3. Types with fields. -/

/-- The fields, the values and the takes of a type agree, and its members have
different names. -/
class LawfulSchema (α : Type) [Schema α] : Prop where
  /-- The values that a value of the type is taken apart into are of the
  fields' kinds. -/
  holds : ∀ a : α, (Schema.layout α).Holds (Schema.toValues a)
  /-- The takes want the values that a value of the type is taken apart into. -/
  takes : ∀ a : α, Take.Takes Schema.take (Schema.toValues a) a
  /-- Camel case does not make two names of fields the same. -/
  nodup : ((Schema.layout α).fields.map Field.memberName).Nodup

namespace Schema

variable {α : Type} [Schema α]

/-- A value of a type with fields is an object of its members. -/
theorem toJson_eq_members (hne : (layout α).fields ≠ []) (a : α) :
    toJson a = .object ((layout α).members (toValues a)) := by
  unfold toJson
  rw [List.isEmpty_eq_false_iff.2 hne, if_neg Bool.false_ne_true]
  rfl

/-- A value of a type with fields is an object of members of these names. -/
theorem toJson_eq_object (a : α) {names : List String}
    (hnames : (layout α).fields.map Field.memberName = names) (hne : names ≠ []) :
    toJson a = .object (names.zip ((toValues a).map Value.toJson)) := by
  have hfields : (layout α).fields ≠ [] := by
    intro hnil
    rw [hnil] at hnames
    exact hne hnames.symm
  rw [toJson_eq_members hfields, Layout.members_eq_zip, Layout.memberNames, hnames]

theorem proper_toJson (a : α) : (toJson a).Proper := by
  unfold toJson
  split
  · exact .null
  · rw [Json.proper_object_iff]
    intro m hm
    obtain ⟨p, _, rfl⟩ := List.mem_map.1 hm
    exact p.2.proper_toJson

variable [LawfulSchema α]

/-- Where the values of a value are read, the value is. -/
theorem ofJson?_of_values (hne : (layout α).fields ≠ []) {a : α} {j : Json}
    (h : (layout α).valuesOfJson? j = some (toValues a)) : ofJson? j = some a := by
  have hlength : (layout α).fields.length = (toValues a).length :=
    (LawfulSchema.holds a).length_eq
  unfold ofJson?
  rw [List.isEmpty_eq_false_iff.2 hne, if_neg Bool.false_ne_true, h]
  show (Take.build take _).toOption = _
  rw [(LawfulSchema.takes a).build_eq hlength.symm]
  rfl

/-- **A value is read back from its JSON.** -/
theorem ofJson?_toJson (a : α) : ofJson? (toJson a) = some a := by
  by_cases hempty : (layout α).fields = []
  · -- no fields, so no values
    have hlength : (toValues a).length = 0 := by
      rw [← (LawfulSchema.holds a).length_eq, hempty, List.length_nil]
    have hbuild : Take.build take ⟨(layout α).fields, toValues a, 0⟩ = .ok a :=
      (LawfulSchema.takes a).build_eq (by rw [hlength, hempty, List.length_nil])
    rw [List.length_eq_zero_iff.1 hlength, hempty] at hbuild
    unfold ofJson? toJson
    simp [hempty, hbuild, Except.toOption]
  · refine ofJson?_of_values hempty ?_
    rw [toJson_eq_members hempty]
    exact Layout.valuesOfJson?_of_perm (LawfulSchema.holds a) LawfulSchema.nodup
      (List.Perm.of_eq (List.append_nil _).symm) (List.forall_mem_nil _)

/-- **A value is read back from its text, on one line or spread out.** -/
theorem parse?_toJson (a : α) :
    parse? (toJson a).compact = some a ∧ parse? (toJson a).pretty = some a := by
  have hproper := proper_toJson a
  unfold parse?
  rw [Json.parse?_compact hproper, Json.parse?_pretty hproper]
  exact ⟨ofJson?_toJson a, ofJson?_toJson a⟩

end Schema

end MerkleAirdrop
