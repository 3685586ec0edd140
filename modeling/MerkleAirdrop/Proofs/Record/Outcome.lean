/-
  MerkleAirdrop.Proofs.Record.Outcome
  ───────────────────────────────────
  **WHAT DECODING A RECORD COMES TO, FOR EVERY BUFFER.**

      RecordType.decode_cases   too short for a tag, another tag, or the tag
                                of the record: then a record if the fields
                                end in the buffer, else the end of the first
                                field that does not

  The fields of the eight records are flat, so their ends can be told from
  the buffer; only the proof of a first claim makes them depend on what is
  in it.
-/
import MerkleAirdrop.Proofs.Layout.Ends
import MerkleAirdrop.Proofs.Layout.Honest
import MerkleAirdrop.Proofs.Record.Decode

namespace MerkleAirdrop

open Kind (countAt)

namespace RecordType

/-! ## §1. Where the fields of a record end. -/

/-- The places of a buffer up to which the fields of a record need bytes, in
turn.  A proof needs the four bytes of its count, then its nodes. -/
def fieldEnds (t : RecordType) (d : List UInt8) : List Nat :=
  Layout.endsFrom d tagWidth t.layout.fields

/-- The bytes of a buffer that a record takes: its declared size, or for the
arguments of a first claim what the count of the proof at byte 24 asks for. -/
def extent : RecordType → List UInt8 → Except Overflow Nat
  | newClaim, d => .ok (28 + 32 * countAt d 24)
  | t, _ => Record.size t.Carrier

theorem fieldEnds_newClaim (d : List UInt8) :
    newClaim.fieldEnds d = [16, 24, 28, 28 + 32 * countAt d 24] := by
  rw [Nat.mul_comm]
  rfl

theorem extent_eq_endFrom (t : RecordType) (d : List UInt8) :
    t.extent d = .ok (Layout.endFrom d tagWidth t.layout.fields) := by
  cases t with
  | newClaim =>
    rw [extent, Nat.mul_comm]
    rfl
  | _ => rfl

theorem isFlat_layout (t : RecordType) : t.layout.isFlat = true := by
  cases t <;> rfl

/-- The ends of fields are numbers of 64 bits, so nothing is cut off. -/
theorem lt_sizeLimit_of_mem_fieldEnds (t : RecordType) (d : List UInt8) {e : Nat}
    (h : e ∈ t.fieldEnds d) : e < sizeLimit := by
  have hend : Layout.endFrom d tagWidth t.layout.fields < sizeLimit := by
    cases t with
    | newClaim =>
      -- a count of 32 bits times 32 bytes is far below the limit
      have hcount := Kind.countAt_lt d 24
      show 28 + countAt d 24 * 32 < 2 ^ 64
      omega
    | _ => exact of_decide_eq_true rfl
  have htag := Layout.le_endFrom d t.layout.fields tagWidth
  exact Nat.lt_of_le_of_lt ((Layout.forall_endsFrom_le_iff htag).2 (Nat.le_refl _) e h) hend

/-! ## §2. Behind the tag. -/

/-- Behind a tag stands the cursor that the fields are read from. -/
theorem start_advance_tagWidth (tag : Discriminator) (body : List UInt8) :
    (Cursor.start (tag.toList ++ body)).advance tagWidth = ⟨tagWidth, body⟩ := by
  have hdrop : (tag.toList ++ body).drop tagWidth = body := List.drop_left' tag.length_toList
  show Cursor.mk (0 + tagWidth) ((tag.toList ++ body).drop tagWidth) = _
  rw [hdrop, Nat.zero_add]

theorem tagWidth_le_length (tag : Discriminator) (body : List UInt8) :
    tagWidth ≤ (tag.toList ++ body).length := by
  rw [List.length_append, tag.length_toList]
  exact Nat.le_add_right 8 body.length

/-- A record is decoded if its fields end in the buffer. -/
theorem exists_decode (t : RecordType) {d body : List UInt8} (hd : d = t.tag.toList ++ body)
    (h : Layout.endFrom d tagWidth t.layout.fields ≤ d.length) :
    ∃ r : t.Carrier, Record.decode d = .ok r := by
  obtain ⟨values, c, hread⟩ := Layout.exists_read t.isFlat_layout LawfulRecord.vecElements h
  rw [hd, start_advance_tagWidth] at hread
  obtain ⟨r, _, hr⟩ := Record.exists_of_read (α := t.Carrier) hread
  refine ⟨r, ?_⟩
  rw [hd]
  exact (Record.decode_tag body).trans hr

/-- Else the first end behind the buffer is reported. -/
theorem decode_of_find? (t : RecordType) {d body : List UInt8} (hd : d = t.tag.toList ++ body)
    {needed : Nat} (h : (t.fieldEnds d).find? (d.length < ·) = some needed) :
    (Record.decode d : Except Error t.Carrier) = .error (.malformedInput needed d.length) := by
  have hplace : tagWidth ≤ d.length := hd ▸ tagWidth_le_length t.tag body
  have hread := Layout.read_of_find? t.isFlat_layout LawfulRecord.vecElements hplace h
  have hlimit := t.lt_sizeLimit_of_mem_fieldEnds d (List.mem_of_find?_eq_some h)
  rw [Nat.min_eq_left (Nat.le_sub_one_of_lt hlimit)] at hread
  subst hd
  rw [start_advance_tagWidth] at hread
  exact (Record.decode_tag body).trans (Record.decodeFields_of_error hread)

/-- The same place is reported of the bytes behind the tag, counted from
there. -/
theorem layout_decode_of_find? (t : RecordType) {d body : List UInt8}
    (hd : d = t.tag.toList ++ body) {needed : Nat}
    (h : (t.fieldEnds d).find? (d.length < ·) = some needed) :
    t.layout.decode body = .error (.malformedInput (needed - tagWidth) body.length) := by
  have hlimit := t.lt_sizeLimit_of_mem_fieldEnds d (List.mem_of_find?_eq_some h)
  have hends : t.fieldEnds d = (Layout.endsFrom body 0 t.layout.fields).map (tagWidth + ·) := by
    have happend := Layout.endsFrom_append t.tag.toList body t.layout.fields 0
    rw [t.tag.length_toList] at happend
    rw [hd]
    exact happend
  have hlength : d.length = tagWidth + body.length := by
    rw [hd, List.length_append, t.tag.length_toList]
    rfl
  -- The search among the shifted ends is a search among the ends.
  rw [hends, List.find?_map, Option.map_eq_some_iff] at h
  obtain ⟨place, hplace, rfl⟩ := h
  have hfind : (Layout.endsFrom body 0 t.layout.fields).find? (body.length < ·) = some place := by
    rw [← hplace]
    congr 1
    funext e
    simp [hlength]
  have hread := Layout.read_of_find? t.isFlat_layout LawfulRecord.vecElements
    (Nat.zero_le body.length) hfind
  rw [Nat.min_eq_left (by omega)] at hread
  rw [Nat.add_sub_cancel_left]
  exact Layout.decode_eq_error_iff.2 hread

/-- Fields that do not end in the buffer have a first end behind it. -/
theorem exists_find? (t : RecordType) {d : List UInt8} (hplace : tagWidth ≤ d.length)
    (h : d.length < Layout.endFrom d tagWidth t.layout.fields) :
    ∃ needed, (t.fieldEnds d).find? (d.length < ·) = some needed := by
  cases hfind : (t.fieldEnds d).find? (d.length < ·) with
  | some needed => exact ⟨needed, rfl⟩
  | none =>
    refine absurd ((Layout.forall_endsFrom_le_iff hplace).1 fun e he => ?_) (Nat.not_le_of_lt h)
    have hnot := List.find?_eq_none.1 hfind e he
    rw [decide_eq_true_eq] at hnot
    exact Nat.le_of_not_lt hnot

/-! ## §3. Every buffer. -/

/-- With its tag in front, a record is decoded exactly when its fields end in
the buffer. -/
theorem exists_decode_iff (t : RecordType) {d : List UInt8} (h : t.tag.toList <+: d) :
    (∃ r : t.Carrier, Record.decode d = .ok r) ↔
      Layout.endFrom d tagWidth t.layout.fields ≤ d.length := by
  obtain ⟨body, hd⟩ := h
  constructor
  · rintro ⟨r, hr⟩
    refine Nat.le_of_not_lt fun hlt => ?_
    obtain ⟨needed, hneeded⟩ := t.exists_find? (hd ▸ tagWidth_le_length t.tag body) hlt
    rw [t.decode_of_find? hd.symm hneeded] at hr
    cases hr
  · exact t.exists_decode hd.symm

/-- With its tag in front, a record that is not decoded is short of a field. -/
theorem find?_of_decode_error (t : RecordType) {d : List UInt8} (h : t.tag.toList <+: d)
    {err : Error} (herr : (Record.decode d : Except Error t.Carrier) = .error err) :
    ∃ needed, (t.fieldEnds d).find? (d.length < ·) = some needed ∧
      err = .malformedInput needed d.length := by
  have hlt : d.length < Layout.endFrom d tagWidth t.layout.fields := by
    refine Nat.lt_of_not_le fun hle => ?_
    obtain ⟨r, hr⟩ := (t.exists_decode_iff h).2 hle
    rw [hr] at herr
    cases herr
  obtain ⟨body, hd⟩ := h
  obtain ⟨needed, hneeded⟩ := t.exists_find? (hd ▸ tagWidth_le_length t.tag body) hlt
  rw [t.decode_of_find? hd.symm hneeded] at herr
  injection herr with herr
  exact ⟨needed, hneeded, herr.symm⟩

/-- **The outcome of decoding a record.**  A buffer without eight bytes lacks
its tag; one with another tag is refused whatever stands behind; one with the
tag of the record is decoded exactly when it has as many bytes as the record
takes.  If it has fewer, the first end of a field that lies behind the buffer
is reported: as the layout does for the bytes behind the tag, eight further
on.  Nothing else is ever reported. -/
theorem decode_cases (t : RecordType) (d : List UInt8) :
    (d.length < tagWidth →
      (Record.decode d : Except Error t.Carrier) = .error (.malformedInput tagWidth d.length)) ∧
    (∀ found : Discriminator, found.toList <+: d → found ≠ t.tag →
      (Record.decode d : Except Error t.Carrier)
        = .error (.wrongDiscriminator (Record.name t.Carrier) t.tag found)) ∧
    (t.tag.toList <+: d →
      (∃ n, t.extent d = .ok n ∧
        ((∃ r : t.Carrier, Record.decode d = .ok r) ↔ n ≤ d.length)) ∧
      ∀ err, (Record.decode d : Except Error t.Carrier) = .error err →
        ∃ needed, (t.fieldEnds d).find? (d.length < ·) = some needed ∧ needed < sizeLimit ∧
          err = .malformedInput needed d.length ∧
          t.layout.decode (d.drop tagWidth)
            = .error (.malformedInput (needed - tagWidth) (d.length - tagWidth))) ∧
    ∀ err, (Record.decode d : Except Error t.Carrier) = .error err →
      (∃ needed, err = .malformedInput needed d.length) ∨
      ∃ found, err = .wrongDiscriminator (Record.name t.Carrier) t.tag found := by
  have hwrong : ∀ found : Discriminator, found.toList <+: d → found ≠ t.tag →
      (Record.decode d : Except Error t.Carrier)
        = .error (.wrongDiscriminator (Record.name t.Carrier) t.tag found) := by
    rintro found ⟨body, rfl⟩ hfound
    exact Record.decode_wrongTag hfound body
  refine ⟨Record.decode_short, hwrong, fun htag =>
    ⟨⟨_, t.extent_eq_endFrom d, t.exists_decode_iff htag⟩, ?_⟩, ?_⟩
  · intro err herr
    obtain ⟨needed, hneeded, hmalformed⟩ := t.find?_of_decode_error htag herr
    have hlimit := t.lt_sizeLimit_of_mem_fieldEnds d (List.mem_of_find?_eq_some hneeded)
    obtain ⟨body, hd⟩ := htag
    have hbody : d.drop tagWidth = body := by
      rw [← hd]
      exact List.drop_left' t.tag.length_toList
    refine ⟨needed, hneeded, hlimit, hmalformed, ?_⟩
    rw [← List.length_drop, hbody]
    exact t.layout_decode_of_find? hd.symm hneeded
  · intro err herr
    rcases Nat.lt_or_ge d.length tagWidth with hlt | hge
    · rw [Record.decode_short hlt] at herr
      injection herr with herr
      exact .inl ⟨_, herr.symm⟩
    · obtain ⟨found, body, hd⟩ := exists_tag hge
      by_cases hfound : found = t.tag
      · obtain ⟨needed, _, hmalformed⟩ := t.find?_of_decode_error ⟨body, by rw [hd, hfound]⟩ herr
        exact .inl ⟨needed, hmalformed⟩
      · rw [hwrong found ⟨body, hd.symm⟩ hfound] at herr
        injection herr with herr
        exact .inr ⟨found, herr.symm⟩

end RecordType

end MerkleAirdrop
