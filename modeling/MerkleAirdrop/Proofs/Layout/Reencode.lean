/-
  MerkleAirdrop.Proofs.Layout.Reencode
  ────────────────────────────────────
  **DECODED VALUES ARE WRITTEN AS THE BYTES THEY WERE READ FROM.**

      Layout.encodeInto_of_decode   what decoding consumed is what encoding
                                    appends, but for the bytes of truth values

  So nothing is lost between a buffer and its values but which nonzero byte
  stood for a truth value: two buffers with the same values agree on all
  bytes that were consumed except there (`EqualButTruth`).
-/
import MerkleAirdrop.Proofs.Layout.Canonical
import MerkleAirdrop.Proofs.Layout.Honest

namespace MerkleAirdrop

/-! ## §1. Equal but for truth values. -/

/-- Equally many bytes, and at each place the same byte or, where the mask
marks a truth value, two bytes that are not zero. -/
def EqualButTruth (mask : List Bool) (bytes bytes' : List UInt8) : Prop :=
  bytes.length = bytes'.length ∧
    ∀ i : Nat, bytes[i]? = bytes'[i]? ∨
      mask[i]? = some true ∧ bytes[i]? ≠ some 0 ∧ bytes'[i]? ≠ some 0

theorem truthByte_eq_iff {b b' : UInt8} :
    truthByte b = truthByte b' ↔ b = b' ∨ b ≠ 0 ∧ b' ≠ 0 := by
  unfold truthByte
  by_cases hb : b = 0 <;> by_cases hb' : b' = 0 <;> simp [hb, hb', eq_comm]

/-- Bytes that settle to the same bytes are equal but for truth values. -/
theorem equalButTruth_of_settle_eq (mask : List Bool) :
    ∀ {bytes bytes' : List UInt8}, mask.length = bytes.length → mask.length = bytes'.length →
      settle mask bytes = settle mask bytes' → EqualButTruth mask bytes bytes' := by
  induction mask with
  | nil =>
    intro bytes bytes' hlength hlength' _
    rw [List.eq_nil_of_length_eq_zero hlength.symm, List.eq_nil_of_length_eq_zero hlength'.symm]
    exact ⟨rfl, fun i => .inl rfl⟩
  | cons isTruth mask ih =>
    intro bytes bytes' hlength hlength' hsettle
    obtain ⟨b, bytes, rfl⟩ := List.exists_cons_of_length_eq_add_one hlength.symm
    obtain ⟨b', bytes', rfl⟩ := List.exists_cons_of_length_eq_add_one hlength'.symm
    injection hsettle with hhead htail
    obtain ⟨heq, hplaces⟩ := ih (Nat.succ.inj hlength) (Nat.succ.inj hlength') htail
    refine ⟨congrArg Nat.succ heq, fun i => ?_⟩
    cases i with
    | succ i => exact hplaces i
    | zero =>
      cases isTruth with
      | false => exact .inl (congrArg some hhead)
      | true =>
        rcases truthByte_eq_iff.1 hhead with hsame | ⟨hb, hb'⟩
        · exact .inl (congrArg some hsame)
        · exact .inr ⟨rfl, by simpa using hb, by simpa using hb'⟩

/-! ## §2. Decode, then encode. -/

namespace Layout

/-- Decoding `d` gives these values, and what it reads of `d` are the bytes
`used` in front. -/
def Consumes (layout : Layout) (d : List UInt8) (values : List Value) (used : List UInt8) : Prop :=
  ∃ rest, d = used ++ rest ∧ layout.read (.start d) = .ok (values, ⟨used.length, rest⟩)

/-- What was decoded fits, and what was consumed settles to its wire form. -/
theorem consumes_of_decode {layout : Layout} {d : List UInt8} {values : List Value}
    (h : layout.decode d = .ok values) :
    layout.Fits values ∧ ∃ used, layout.Consumes d values used ∧
      (layout.boolMask values).length = used.length ∧
      settle (layout.boolMask values) used = layout.wire values := by
  obtain ⟨c, hread⟩ := decode_eq_ok_iff.1 h
  obtain ⟨hfits, used, hrest, hoffset, hmask, hsettle⟩ := layout.passed_of_read hread
  refine ⟨hfits, used, ⟨c.rest, hrest, ?_⟩, hmask, hsettle⟩
  have hcursor : c = ⟨used.length, c.rest⟩ := by
    obtain ⟨offset, rest⟩ := c
    rw [show offset = used.length from hoffset.trans (Nat.zero_add _)]
  rw [hread, ← hcursor]

/-- **Encoding undoes decoding.**  Decoded values are appended to any buffer
as the very bytes that were consumed, but for truth values, of which every
nonzero byte becomes `1`.  Buffers with the same values therefore differ, in
what was consumed, only in such bytes. -/
theorem encodeInto_of_decode {layout : Layout} {d : List UInt8} {values : List Value}
    (h : layout.decode d = .ok values) :
    ∃ used, layout.Consumes d values used ∧
      (layout.boolMask values).length = used.length ∧
      (∀ out, layout.encodeInto values out
        = .done (out ++ settle (layout.boolMask values) used)) ∧
      ∀ d', layout.decode d' = .ok values →
        ∃ used', layout.Consumes d' values used' ∧
          EqualButTruth (layout.boolMask values) used used' := by
  obtain ⟨hfits, used, hused, hmask, hsettle⟩ := consumes_of_decode h
  refine ⟨used, hused, hmask, ?_, ?_⟩
  · intro out
    rw [encodeInto_of_fits hfits, hsettle]
  · intro d' h'
    obtain ⟨_, used', hused', hmask', hsettle'⟩ := consumes_of_decode h'
    exact ⟨used', hused',
      equalButTruth_of_settle_eq _ hmask hmask' (hsettle.trans hsettle'.symm)⟩

/-- A vector of one pair of truth values and a signed number, with a byte
behind them: the `7` that was read as true is written as `1`. -/
theorem encodeInto_of_decode_pairs :
    decode ⟨[⟨"pairs", .vec (.array .bool 2)⟩, ⟨"offset", .i64⟩]⟩
        [1, 0, 0, 0, 7, 0, 254, 255, 255, 255, 255, 255, 255, 255, 9]
      = .ok [.list [.list [.bool true, .bool false]], .i64 (-2)] ∧
    encodeInto ⟨[⟨"pairs", .vec (.array .bool 2)⟩, ⟨"offset", .i64⟩]⟩
        [.list [.list [.bool true, .bool false]], .i64 (-2)] [5]
      = .done [5, 1, 0, 0, 0, 1, 0, 254, 255, 255, 255, 255, 255, 255, 255] := by
  have hdecode : decode ⟨[⟨"pairs", .vec (.array .bool 2)⟩, ⟨"offset", .i64⟩]⟩
      [1, 0, 0, 0, 7, 0, 254, 255, 255, 255, 255, 255, 255, 255, 9]
        = .ok [.list [.list [.bool true, .bool false]], .i64 (-2)] := rfl
  refine ⟨hdecode, ?_⟩
  obtain ⟨used, ⟨rest, hused, hread⟩, _, hencode, _⟩ := encodeInto_of_decode hdecode
  -- fourteen of the fifteen bytes were consumed
  have hcursor : read ⟨[⟨"pairs", .vec (.array .bool 2)⟩, ⟨"offset", .i64⟩]⟩
      (.start [1, 0, 0, 0, 7, 0, 254, 255, 255, 255, 255, 255, 255, 255, 9])
        = .ok ([.list [.list [.bool true, .bool false]], .i64 (-2)], ⟨14, [9]⟩) := rfl
  have hlength : used.length = 14 := by
    rw [hcursor] at hread
    injection hread with hread
    injection hread with _ hread
    injection hread with hread
    exact hread.symm
  rw [hencode, ← List.take_left' hlength, ← hused]
  rfl

end Layout

end MerkleAirdrop
