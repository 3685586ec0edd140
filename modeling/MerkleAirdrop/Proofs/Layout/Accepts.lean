/-
  MerkleAirdrop.Proofs.Layout.Accepts
  ───────────────────────────────────
  **WHETHER A TAKE SUCCEEDS IS SETTLED BY THE KIND OF ITS FIELD, OR ALMOST.**

      TakeType.exists_value_iff      a value shows its kind, save for the
                                     empty list
      Layout.take_by_kind            so does a take, save where a list is
                                     taken as hashes
      Layout.hashes_of_empty_bytes   where a vector of bytes passes as hashes
-/
import MerkleAirdrop.Proofs.Layout.Answers

namespace MerkleAirdrop

/-! ## §1. Kinds and the types that they accept. -/

/-- The kind is that of an array or of a vector. -/
def Kind.IsList : Kind → Prop
  | .array _ _ | .vec _ => True
  | _ => False

namespace TakeType

/-- Values of the kind are of the type. -/
def Accepts : TakeType → Kind → Prop
  | u8, .u8 | u64, .u64 | i64, .i64 | bool, .bool | pubkey, .pubkey => True
  | block n, .bytes length => length.toNat = n
  | hashes, .array element _ | hashes, .vec element => element = .bytes 32
  | _, _ => False

theorem isSome_view_iff {t : TakeType} {v : Value} :
    (t.view v).isSome = true ↔ ∃ a, v = t.value a := by
  rw [Option.isSome_iff_exists]
  exact exists_congr fun a => view_eq_some_iff

/-- A list whose elements fit a kind is one of hashes if the kind is theirs, and
if it has no elements that could tell. -/
theorem exists_hashes_iff {element : Kind} {items : List Value}
    (h : ∀ item ∈ items, element.Fits item) :
    (∃ nodes, Value.list items = hashes.value nodes) ↔ element = .bytes 32 ∨ items = [] := by
  constructor
  · rintro ⟨nodes, hnodes⟩
    have hitems : items = List.map (fun node : Hash => .bytes node.toList) nodes :=
      Value.list.inj hnodes
    cases nodes with
    | nil => exact .inr hitems
    | cons node nodes =>
      -- the first element shows the kind of all
      have hfit : element.Fits (.bytes node.toList) := h _ (hitems ▸ List.mem_cons_self)
      cases element with
      | bytes length =>
        have hlength : length.toNat = 32 := hfit.symm.trans node.length_toList
        exact .inl (congrArg Kind.bytes (UInt64.toNat_inj.1 hlength))
      | _ => cases hfit
  · rintro (rfl | rfl)
    · obtain ⟨nodes, rfl⟩ := Kind.exists_blocks h
      exact ⟨nodes, rfl⟩
    · exact ⟨[], rfl⟩

/-- **A value of a kind is of the types that the kind accepts, and an empty list
is one of hashes whatever its kind.** -/
theorem exists_value_iff (t : TakeType) {k : Kind} {v : Value} (h : k.Fits v) :
    (∃ a, v = t.value a) ↔ t.Accepts k ∨ (t = hashes ∧ k.IsList ∧ v = .list []) := by
  cases k with
  | bytes length =>
    obtain ⟨bs, rfl, hlength⟩ := Kind.fits_bytes_iff.1 h
    rw [← isSome_view_iff]
    cases t with
    | block n =>
      show (Block.ofList? n bs).isSome = true ↔ _
      unfold Block.ofList?
      by_cases hn : length.toNat = n <;> simp [Accepts, Kind.IsList, hlength, hn]
    | _ => simp [view, Value.asU8?, Value.asU64?, Value.asI64?, Value.asBool?, Value.asPubkey?,
        Value.asHashes?, Accepts, Kind.IsList]
  | array element length =>
    obtain ⟨items, rfl, -, hitems⟩ := Kind.fits_array_iff.1 h
    cases t with
    | hashes =>
      rw [exists_hashes_iff hitems]
      simp [Accepts, Kind.IsList]
    | _ => simp [value, Accepts]
  | vec element =>
    obtain ⟨items, rfl, -, hitems⟩ := Kind.fits_vec_iff.1 h
    cases t with
    | hashes =>
      rw [exists_hashes_iff hitems]
      simp [Accepts, Kind.IsList]
    | _ => simp [value, Accepts]
  | _ =>
    -- the other kinds have one sort of value
    rw [← isSome_view_iff]
    cases v <;> cases h
    cases t <;> simp [view, Value.asU8?, Value.asU64?, Value.asI64?, Value.asBool?,
      Value.asPubkey?, Value.asBlock?, Value.asHashes?, Accepts, Kind.IsList]

end TakeType

/-! ## §2. Answers by kind. -/

namespace Layout

variable {layout : Layout} {data : List UInt8} {i : Nat} {t : TakeType}
  {answer : Except Error t.Carrier}

/-- A row of takes over the fields of this buffer takes field number `i` as `t`
and is given this answer. -/
def Answered (layout : Layout) (data : List UInt8) (i : Nat) (t : TakeType)
    (answer : Except Error t.Carrier) : Prop :=
  ∃ state types, layout.decodeFields data = .ok state ∧
    (state.answers types)[i]? = some ⟨t, answer⟩

theorem answered_iff {values : List Value} (h : layout.decode data = .ok values) :
    layout.Answered data i t answer ↔ t.Answers layout.fields values i answer := by
  obtain ⟨hstate, -, hlength⟩ := decodeFields_of_decode h
  constructor
  · rintro ⟨state, types, hstate', hanswer⟩
    rw [hstate] at hstate'
    rw [← Except.ok.inj hstate', DecodedFields.answers_iff hlength, Nat.zero_add] at hanswer
    exact hanswer.2
  · intro hanswer
    refine ⟨_, List.replicate (i + 1) t, hstate, ?_⟩
    rw [DecodedFields.answers_iff hlength, Nat.zero_add]
    exact ⟨by rw [List.getElem?_replicate_of_lt (Nat.lt_succ_self i)], hanswer⟩

/-- A take that was answered was made over a buffer that was decoded. -/
theorem exists_decode_of_answered (h : layout.Answered data i t answer) :
    ∃ values, layout.decode data = .ok values := by
  obtain ⟨state, -, hstate, -⟩ := h
  obtain ⟨⟨_, c⟩, hread, -⟩ := Except.map_eq_ok_iff.1 hstate
  obtain ⟨values, c', hread, -⟩ := Reader.ok_of_bind hread
  exact ⟨values, Except.map_eq_ok_iff.2 ⟨_, hread, rfl⟩⟩

/-- A field has a value, which fits it. -/
theorem Fits.exists_value {values : List Value} (h : layout.Fits values) {field : Field}
    (hfield : layout.fields[i]? = some field) :
    ∃ value, values[i]? = some value ∧ field.kind.Fits value := by
  obtain ⟨hi, rfl⟩ := List.getElem?_eq_some_iff.1 hfield
  have hi' : i < values.length := h.length_eq ▸ hi
  exact ⟨values[i], List.getElem?_eq_getElem hi', h.get hi hi'⟩

/-- Whether a take succeeds is settled by the kind of its field and, for a list
taken as hashes, by whether it is empty. -/
theorem isOk_of_answered {values : List Value} (h : layout.decode data = .ok values)
    {field : Field} (hfield : layout.fields[i]? = some field)
    (hanswer : layout.Answered data i t answer) :
    (answer.isOk = true ↔ t.Accepts field.kind ∨
      (t = .hashes ∧ field.kind.IsList ∧ values[i]? = some (.list []))) ∧
    (answer.isOk = true ∨ answer = .error (.valueMismatch field.name field.kind)) := by
  obtain ⟨value, hvalue, hfit⟩ := (decodeFields_of_decode h).2.1.exists_value hfield
  rw [hvalue, Option.some.injEq, ← t.exists_value_iff hfit]
  cases (answered_iff h).1 hanswer with
  | taken _ hvalue' =>
    have hsame := Option.some.inj (hvalue.symm.trans hvalue')
    exact ⟨⟨fun _ => ⟨_, hsame⟩, fun _ => rfl⟩, .inl rfl⟩
  | refused hfield' hvalue' hnone =>
    obtain rfl := Option.some.inj (hvalue.symm.trans hvalue')
    obtain rfl := Option.some.inj (hfield.symm.trans hfield')
    exact ⟨⟨fun hok => absurd hok Bool.false_ne_true, fun ⟨a, ha⟩ => absurd ha (hnone a)⟩, .inr rfl⟩
  | past hle =>
    rw [List.getElem?_eq_none hle] at hfield
    cases hfield

/-- **Takes check the kind of their field, save for empty lists.**  A take
succeeds exactly if the kind accepts its type, or if an empty list is taken as
hashes, and is told of a mismatch otherwise.  So whether it succeeds is the
same for all buffers, save where a list of something else is taken as
hashes. -/
theorem take_by_kind {field : Field} (hfield : layout.fields[i]? = some field) (t : TakeType) :
    (∀ (data : List UInt8) (values : List Value), layout.decode data = .ok values →
      (∃ answer, layout.Answered data i t answer) ∧
      ∀ answer : Except Error t.Carrier, layout.Answered data i t answer →
        (answer.isOk = true ↔ t.Accepts field.kind ∨
          (t = .hashes ∧ field.kind.IsList ∧ values[i]? = some (.list []))) ∧
        (answer.isOk = true ∨ answer = .error (.valueMismatch field.name field.kind))) ∧
    (t.Accepts field.kind ∨ ¬ (t = .hashes ∧ field.kind.IsList) →
      ∀ (data data' : List UInt8) (answer answer' : Except Error t.Carrier),
        layout.Answered data i t answer → layout.Answered data' i t answer' →
        answer.isOk = answer'.isOk) := by
  constructor
  · intro data values h
    have hanswers := (DecodedFields.take_behind (decodeFields_of_decode h).2.2 i t).1
    exact ⟨⟨_, (answered_iff h).2 hanswers⟩, fun answer => isOk_of_answered h hfield⟩
  · intro hkind data data' answer answer' hanswer hanswer'
    have hsettled : ∀ {data answer}, layout.Answered data i t answer →
        (answer.isOk = true ↔ t.Accepts field.kind) := by
      intro data answer hanswer
      obtain ⟨values, h⟩ := exists_decode_of_answered hanswer
      rw [(isOk_of_answered h hfield hanswer).1]
      constructor
      · rintro (haccepts | ⟨ht, hlist, -⟩)
        · exact haccepts
        · exact hkind.resolve_right fun hnot => hnot ⟨ht, hlist⟩
      · exact .inl
    rw [Bool.eq_iff_iff, hsettled hanswer, hsettled hanswer']

/-- A number behind marks is a number whatever the marks are; taken as hashes,
the marks pass if there are none. -/
theorem take_by_kind_marks :
    let layout : Layout := ⟨[⟨"marks", .vec .u8⟩, ⟨"amount", .u64⟩]⟩
    layout.fields[1]? = some ⟨"amount", .u64⟩ ∧ layout.fields[0]? = some ⟨"marks", .vec .u8⟩ ∧
    (∃ amount, layout.Answered [1, 0, 0, 0, 7, 5, 0, 0, 0, 0, 0, 0, 0] 1 .u64 amount ∧
      amount.isOk = true) ∧
    (∃ marks, layout.Answered [0, 0, 0, 0, 5, 0, 0, 0, 0, 0, 0, 0] 0 .hashes marks ∧
      marks.isOk = true) ∧
    ∃ marks, layout.Answered [1, 0, 0, 0, 7, 5, 0, 0, 0, 0, 0, 0, 0] 0 .hashes marks ∧
      marks = .error (.valueMismatch "marks" (.vec .u8)) := by
  intro layout
  have hsome : layout.decode [1, 0, 0, 0, 7, 5, 0, 0, 0, 0, 0, 0, 0]
      = .ok [.list [.u8 7], .u64 5] := rfl
  have hnone : layout.decode [0, 0, 0, 0, 5, 0, 0, 0, 0, 0, 0, 0] = .ok [.list [], .u64 5] := rfl
  have hmarks := @take_by_kind layout 0 ⟨"marks", .vec .u8⟩ rfl .hashes
  have hamounts := @take_by_kind layout 1 ⟨"amount", .u64⟩ rfl .u64
  obtain ⟨⟨amount, hamount⟩, hnumber⟩ := hamounts.1 _ _ hsome
  obtain ⟨⟨few, hfew⟩, hempty⟩ := hmarks.1 _ _ hnone
  obtain ⟨⟨marks, hmany⟩, hfull⟩ := hmarks.1 _ _ hsome
  have hrefused : ¬ marks.isOk = true := by
    rw [(hfull marks hmany).1]
    rintro (haccepts | ⟨-, -, hlist⟩)
    · cases haccepts
    · cases hlist
  exact ⟨rfl, rfl, ⟨amount, hamount, (hnumber amount hamount).1.2 (.inl trivial)⟩,
    ⟨few, hfew, (hempty few hfew).1.2 (.inr ⟨rfl, trivial, rfl⟩)⟩,
    marks, hmany, (hfull marks hmany).2.resolve_left hrefused⟩

/-- A vector of bytes is taken as hashes where it is empty, and refused where it
is not; so success does not tell what the field declares. -/
theorem hashes_of_empty_bytes :
    let layout : Layout := ⟨[⟨"marks", .vec .u8⟩]⟩
    ¬ TakeType.hashes.Accepts (.vec .u8) ∧
    layout.Answered [0, 0, 0, 0] 0 .hashes (.ok ([] : List Hash)) ∧
    layout.Answered [1, 0, 0, 0, 7] 0 .hashes (.error (.valueMismatch "marks" (.vec .u8))) ∧
    ¬ ∀ (data data' : List UInt8) (answer answer' : Except Error (List Hash)),
      layout.Answered data 0 .hashes answer → layout.Answered data' 0 .hashes answer' →
        answer.isOk = answer'.isOk := by
  intro layout
  have hempty : layout.Answered [0, 0, 0, 0] 0 .hashes (.ok ([] : List Hash)) :=
    ⟨_, [.hashes], rfl, rfl⟩
  have hfull : layout.Answered [1, 0, 0, 0, 7] 0 .hashes
      (.error (.valueMismatch "marks" (.vec .u8))) := ⟨_, [.hashes], rfl, rfl⟩
  refine ⟨nofun, hempty, hfull, fun h => ?_⟩
  cases h _ _ _ _ hempty hfull

end Layout

end MerkleAirdrop
