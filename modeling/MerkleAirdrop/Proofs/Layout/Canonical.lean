/-
  MerkleAirdrop.Proofs.Layout.Canonical
  ─────────────────────────────────────
  **WHAT IS READ WAS WRITTEN, UP TO THE BYTES OF TRUTH VALUES.**

  Reading forgets one thing: which nonzero byte stood for `true`.  The mask
  of a value (`Kind.boolMask`) marks the bytes of its wire form that hold
  truth values; `settle` puts `1` for every marked byte that is not zero.

      Kind.passed_of_read     a value that was read fits its kind, and the
                              bytes passed over are, settled, its wire form
      Layout.passed_of_read   the same of one value per field
-/
import MerkleAirdrop.Proofs.Bytes
import MerkleAirdrop.Proofs.Layout.Reader
import MerkleAirdrop.Proofs.Layout.Wire

namespace MerkleAirdrop

/-! ## §1. Masks. -/

/-- The byte that stands for the truth value of a byte. -/
def truthByte (b : UInt8) : UInt8 := if b = 0 then 0 else 1

/-- The bytes with a truth value at every marked place. -/
def settle (mask : List Bool) (bytes : List UInt8) : List UInt8 :=
  List.zipWith (fun isTruth b => if isTruth then truthByte b else b) mask bytes

theorem settle_append {mask mask' : List Bool} {bytes bytes' : List UInt8}
    (h : mask.length = bytes.length) :
    settle (mask ++ mask') (bytes ++ bytes') = settle mask bytes ++ settle mask' bytes' := by
  exact List.zipWith_append h

theorem length_settle {mask : List Bool} {bytes : List UInt8} (h : mask.length = bytes.length) :
    (settle mask bytes).length = bytes.length := by
  unfold settle
  rw [List.length_zipWith, h, Nat.min_self]

theorem settle_unmarked (bytes : List UInt8) :
    settle (List.replicate bytes.length false) bytes = bytes := by
  induction bytes with
  | nil => rfl
  | cons b bytes ih =>
    show b :: settle (List.replicate bytes.length false) bytes = b :: bytes
    rw [ih]

/-- The places of a value's wire form that hold truth values. -/
def Kind.boolMask : Kind → Value → List Bool
  | .bool, .bool _ => [true]
  | .array element _, .list items => items.flatMap element.boolMask
  | .vec element, .list items =>
    List.replicate countWidth false ++ items.flatMap element.boolMask
  | kind, value => List.replicate (kind.wire value).length false

/-- The places of the fields' wire form that hold truth values. -/
def Layout.boolMask (layout : Layout) (values : List Value) : List Bool :=
  (List.zipWith (fun field value => field.kind.boolMask value) layout.fields values).flatten

/-! ## §2. Bytes passed over. -/

/-- From `c` to `c'` lie bytes that are, settled by `mask`, these `bytes`. -/
def Cursor.Passed (c c' : Cursor) (mask : List Bool) (bytes : List UInt8) : Prop :=
  ∃ used, c.rest = used ++ c'.rest ∧ c'.offset = c.offset + used.length ∧
    mask.length = used.length ∧ settle mask used = bytes

namespace Cursor.Passed

protected theorem refl (c : Cursor) : c.Passed c [] [] :=
  ⟨[], rfl, rfl, rfl, rfl⟩

protected theorem trans {c c' c'' : Cursor} {mask mask' : List Bool} {bytes bytes' : List UInt8}
    (h : c.Passed c' mask bytes) (h' : c'.Passed c'' mask' bytes') :
    c.Passed c'' (mask ++ mask') (bytes ++ bytes') := by
  obtain ⟨used, hrest, hoffset, hmask, hsettle⟩ := h
  obtain ⟨used', hrest', hoffset', hmask', hsettle'⟩ := h'
  refine ⟨used ++ used', ?_, ?_, ?_, ?_⟩
  · rw [hrest, hrest', List.append_assoc]
  · rw [hoffset', hoffset, List.length_append, Nat.add_assoc]
  · rw [List.length_append, List.length_append, hmask, hmask']
  · rw [settle_append hmask, hsettle, hsettle']

/-- A byte is passed over as it is. -/
theorem byte {c c' : Cursor} {b : UInt8} (h : Reader.byte c = .ok (b, c')) :
    c.Passed c' [false] [b] := by
  obtain ⟨hrest, hoffset⟩ := Reader.rest_of_byte h
  exact ⟨[b], hrest, hoffset, rfl, rfl⟩

/-- A block is passed over as it is. -/
theorem block {n : Nat} {c c' : Cursor} {b : Block n} (h : Reader.block n c = .ok (b, c')) :
    c.Passed c' (List.replicate b.toList.length false) b.toList := by
  obtain ⟨hrest, hoffset⟩ := Reader.rest_of_block h
  exact ⟨b.toList, hrest, by rw [hoffset, b.length_toList], List.length_replicate,
    settle_unmarked b.toList⟩

/-- A repeated read passes over what its elements pass over. -/
theorem repeated {α : Type} {read : Reader α} {good : α → Prop} {mask : α → List Bool}
    {bytes : α → List UInt8}
    (h : ∀ {c c' a}, read c = .ok (a, c') → good a ∧ c.Passed c' (mask a) (bytes a)) (n : Nat) :
    ∀ {c c' : Cursor} {as : List α}, read.repeated n c = .ok (as, c') →
      as.length = n ∧ (∀ a ∈ as, good a) ∧ c.Passed c' (as.flatMap mask) (as.flatMap bytes) := by
  induction n with
  | zero =>
    intro c c' as hread
    injection hread with hread
    injection hread with has hc
    rw [← has, ← hc]
    exact ⟨rfl, by simp, Passed.refl c⟩
  | succ n ih =>
    intro c c' as hread
    obtain ⟨a, c₁, hhead, hread⟩ := Reader.ok_of_bind hread
    obtain ⟨rest, c₂, htail, hread⟩ := Reader.ok_of_bind hread
    injection hread with hread
    injection hread with has hc
    obtain ⟨hgood, hpassed⟩ := h hhead
    obtain ⟨hlength, hrest, hpassed'⟩ := ih htail
    rw [← has, ← hc]
    exact ⟨by rw [List.length_cons, hlength], List.forall_mem_cons.2 ⟨hgood, hrest⟩,
      hpassed.trans hpassed'⟩

end Cursor.Passed

/-! ## §3. One value. -/

namespace Kind

/-- **What was read fits, and is the wire form of what was passed over.** -/
theorem passed_of_read (k : Kind) : ∀ {c c' : Cursor} {v : Value}, k.read c = .ok (v, c') →
    k.Fits v ∧ c.Passed c' (k.boolMask v) (k.wire v) := by
  induction k with
  | u8 =>
    intro c c' v h
    obtain ⟨b, c₁, hread, h⟩ := Reader.ok_of_bind h
    cases h
    exact ⟨trivial, .byte hread⟩
  | u64 =>
    intro c c' v h
    obtain ⟨b, c₁, hread, h⟩ := Reader.ok_of_bind h
    cases h
    refine ⟨trivial, ?_⟩
    -- the number is written as the very bytes that it was read from
    unfold boolMask wire
    rw [bytesOfU64_u64OfBytes b.length_toList]
    exact .block hread
  | i64 =>
    intro c c' v h
    obtain ⟨b, c₁, hread, h⟩ := Reader.ok_of_bind h
    cases h
    refine ⟨trivial, ?_⟩
    unfold boolMask wire
    rw [bytesOfI64_i64OfBytes b.length_toList]
    exact .block hread
  | bool =>
    intro c c' v h
    obtain ⟨b, c₁, hread, h⟩ := Reader.ok_of_bind h
    cases h
    obtain ⟨hrest, hoffset⟩ := Reader.rest_of_byte hread
    -- here bytes are forgotten: every nonzero one is written as 1
    refine ⟨trivial, [b], hrest, hoffset, rfl, ?_⟩
    by_cases hb : b = 0
    · simp [wire, boolMask, settle, truthByte, hb]
    · simp [wire, boolMask, settle, truthByte, hb]
  | bytes length =>
    intro c c' v h
    obtain ⟨b, c₁, hread, h⟩ := Reader.ok_of_bind h
    cases h
    exact ⟨b.length_toList, .block hread⟩
  | pubkey =>
    intro c c' v h
    obtain ⟨b, c₁, hread, h⟩ := Reader.ok_of_bind h
    cases h
    exact ⟨trivial, .block hread⟩
  | array element length ih =>
    intro c c' v h
    obtain ⟨items, c₁, hread, h⟩ := Reader.ok_of_bind h
    cases h
    obtain ⟨hlength, hfits, hpassed⟩ := Cursor.Passed.repeated ih _ hread
    exact ⟨⟨hlength, hfits⟩, hpassed⟩
  | vec element ih =>
    intro c c' v h
    obtain ⟨b, c₁, w, items, hblock, _, _, hread, rfl⟩ := ok_of_read_vec h
    obtain ⟨hlength, hfits, hpassed⟩ := Cursor.Passed.repeated ih _ hread
    -- as many elements were read as the count says, so it is written again
    have hcount : items.length < countLimit := hlength ▸ b.toNat_lt
    have hpassedCount := Cursor.Passed.block hblock
    rw [b.length_toList, ← b.ofNat_toNat, ← hlength] at hpassedCount
    exact ⟨⟨hcount, hfits⟩, hpassedCount.trans hpassed⟩

end Kind

/-! ## §4. All fields. -/

/-- **Fields that were read fit, and are the wire form of what was passed
over.** -/
theorem Layout.passed_of_read (layout : Layout) :
    ∀ {c c' : Cursor} {values : List Value}, layout.read c = .ok (values, c') →
      layout.Fits values ∧ c.Passed c' (layout.boolMask values) (layout.wire values) := by
  obtain ⟨fields⟩ := layout
  unfold Layout.read Layout.Fits Layout.boolMask Layout.wire
  dsimp only
  induction fields with
  | nil =>
    intro c c' values h
    cases h
    exact ⟨.nil, .refl c⟩
  | cons field fields ih =>
    intro c c' values h
    rw [List.mapM_cons] at h
    obtain ⟨value, c₁, hhead, h⟩ := Reader.ok_of_bind h
    obtain ⟨rest, c₂, htail, h⟩ := Reader.ok_of_bind h
    cases h
    obtain ⟨hfit, hpassed⟩ := field.kind.passed_of_read hhead
    obtain ⟨hfits, hpassed'⟩ := ih htail
    exact ⟨.cons hfit hfits, hpassed.trans hpassed'⟩

end MerkleAirdrop
