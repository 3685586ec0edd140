/-
  MerkleAirdrop.Proofs.Record.Decode
  ──────────────────────────────────
  **DECODING A RECORD IS A CHECK OF ITS TAG AND A READ OF ITS LAYOUT.**

  The three outcomes of the tag, and what the fields behind it come to: the
  takes of a lawful record never fail on values that its layout read, so a
  record is decoded exactly when its layout is read, with the same error.
-/
import MerkleAirdrop.Proofs.Layout.Canonical
import MerkleAirdrop.Proofs.Record.Lawful

namespace MerkleAirdrop

/-! ## §1. The tag. -/

theorem splitTag_short {d : List UInt8} (h : d.length < tagWidth) :
    splitTag d = .error (.malformedInput tagWidth d.length) := by
  have hnone : Block.take? tagWidth d = none := by
    unfold Block.take? Block.ofList?
    rw [dif_neg (by rw [List.length_take]; omega)]
  unfold splitTag
  rw [hnone]

theorem splitTag_append (tag : Discriminator) (body : List UInt8) :
    splitTag (tag.toList ++ body) = .ok (tag, ⟨tagWidth, body⟩) := by
  have htake : (tag.toList ++ body).take tagWidth = tag.toList := List.take_left' tag.length_toList
  have hdrop : (tag.toList ++ body).drop tagWidth = body := List.drop_left' tag.length_toList
  have hsome : Block.take? tagWidth (tag.toList ++ body) = some tag := by
    unfold Block.take?
    rw [htake]
    exact Block.ofList?_toList tag
  unfold splitTag
  rw [hsome, hdrop]

/-- Eight bytes or more begin with a tag. -/
theorem exists_tag {d : List UInt8} (h : tagWidth ≤ d.length) :
    ∃ (tag : Discriminator) (body : List UInt8), d = tag.toList ++ body :=
  ⟨⟨d.take tagWidth, List.length_take_of_le h⟩, d.drop tagWidth,
    (List.take_append_drop tagWidth d).symm⟩

namespace Record

variable {α : Type} [Record α]

theorem decode_short {d : List UInt8} (h : d.length < tagWidth) :
    (decode d : Except Error α) = .error (.malformedInput tagWidth d.length) := by
  unfold decode
  rw [splitTag_short h]
  rfl

theorem decode_wrongTag {tag : Discriminator} (h : tag ≠ discriminator α) (body : List UInt8) :
    (decode (tag.toList ++ body) : Except Error α)
      = .error (.wrongDiscriminator (name α) (discriminator α) tag) := by
  unfold decode
  rw [splitTag_append]
  show (if tag = discriminator α then _ else _) = _
  rw [if_neg h]
  rfl

theorem decode_tag (body : List UInt8) :
    (decode ((discriminator α).toList ++ body) : Except Error α)
      = decodeFields ⟨tagWidth, body⟩ := by
  unfold decode
  rw [splitTag_append]
  show (if discriminator α = discriminator α then _ else _) = _
  rw [if_pos rfl]

/-- What is decoded begins with the tag. -/
theorem exists_body_of_decode {d : List UInt8} {r : α} (h : decode d = .ok r) :
    ∃ body, d = (discriminator α).toList ++ body := by
  rcases Nat.lt_or_ge d.length tagWidth with hshort | hlong
  · rw [decode_short hshort] at h
    cases h
  · obtain ⟨tag, body, rfl⟩ := exists_tag hlong
    by_cases htag : tag = discriminator α
    · exact ⟨body, by rw [htag]⟩
    · rw [decode_wrongTag htag] at h
      cases h

/-! ## §2. The fields. -/

theorem decodeFields_of_error {c : Cursor} {e : Error}
    (h : (Schema.layout α).read c = .error e) : (decodeFields c : Except Error α) = .error e := by
  unfold decodeFields Layout.readFields Reader.run
  rw [Reader.bind_error h]
  rfl

theorem decodeFields_of_ok {c c' : Cursor} {values : List Value}
    (h : (Schema.layout α).read c = .ok (values, c')) :
    (decodeFields c : Except Error α)
      = Schema.take.build ⟨(Schema.layout α).fields, values, 0⟩ := by
  unfold decodeFields Layout.readFields Reader.run
  rw [Reader.bind_ok h]
  rfl

variable [LawfulRecord α]

/-- The takes put together again what was taken apart. -/
theorem build_toValues (r : α) :
    Schema.take.build ⟨(Schema.layout α).fields, Schema.toValues r, 0⟩ = .ok r :=
  (LawfulRecord.takes r).build_eq (LawfulRecord.length_toValues r)

/-- Values that a layout read are those of a record. -/
theorem exists_of_read {c c' : Cursor} {values : List Value}
    (h : (Schema.layout α).read c = .ok (values, c')) :
    ∃ r : α, Schema.toValues r = values ∧ decodeFields c = .ok r := by
  obtain ⟨r, hr⟩ := LawfulRecord.exists_of_fits (α := α) (Layout.passed_of_read _ h).1
  refine ⟨r, hr, ?_⟩
  rw [decodeFields_of_ok h, ← hr, build_toValues]

/-- **Fields are decoded to a record exactly when its values are read.** -/
theorem decodeFields_eq_ok_iff {c : Cursor} {r : α} :
    decodeFields c = .ok r ↔ ∃ c', (Schema.layout α).read c = .ok (Schema.toValues r, c') := by
  constructor
  · intro h
    cases hread : (Schema.layout α).read c with
    | error e =>
      rw [decodeFields_of_error hread] at h
      cases h
    | ok p =>
      -- the values that were read are those of some record: of `r`, since
      -- the takes give no other
      obtain ⟨values, c'⟩ := p
      obtain ⟨r', hr', hdecode⟩ := exists_of_read (α := α) hread
      rw [hdecode] at h
      cases h
      exact ⟨c', by rw [hr']⟩
  · rintro ⟨c', hread⟩
    rw [decodeFields_of_ok hread, build_toValues]

end Record

end MerkleAirdrop
