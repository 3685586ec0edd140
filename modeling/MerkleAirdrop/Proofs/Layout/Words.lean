/-
  MerkleAirdrop.Proofs.Layout.Words
  ─────────────────────────────────
  **READING IN 64-BIT ARITHMETIC.**

  The reader counts in plain numbers and keeps what lies ahead of it.
  `Kind.readWords` keeps the whole buffer and an offset into it instead, and
  every number that it works out stays in 64 bits: where a piece ends is a
  checked sum, the weight of a count is a product that stops at the largest
  number, and what is left of the buffer is a difference, which must not fall
  below zero.

      Layout.decodeWords_eq   on every buffer the two give the same values or
                              the same error, and no step faults

  What carries the proof is that an offset never leaves the buffer
  (`Reader.InWords`): a checked sum that leaves the 64-bit range then lies
  behind the buffer anyway, and so does a product that was cut off.
-/
import MerkleAirdrop.Proofs.Layout.Honest

namespace MerkleAirdrop

/-! ## §1. 64-bit arithmetic. -/

namespace Word

/-- The sum, if it is below the limit. -/
def checkedAdd (a b : Nat) : Option Nat := if a + b < sizeLimit then some (a + b) else none

/-- The sum, or the largest number below the limit. -/
def saturatingAdd (a b : Nat) : Nat := min (a + b) (sizeLimit - 1)

/-- The product, or the largest number below the limit. -/
def saturatingMul (a b : Nat) : Nat := min (a * b) (sizeLimit - 1)

/-- The difference, if it is not below zero. -/
def checkedSub (a b : Nat) : Option Nat := if b ≤ a then some (a - b) else none

end Word

/-- How a read in 64-bit arithmetic ends that gives no value. -/
inductive Halt where
  /-- The read fails. -/
  | failed (e : Error)
  /-- A difference falls below zero, a slice leaves its buffer, or an array is
  filled from a slice of another length. -/
  | fault
  deriving DecidableEq

/-- A read in 64-bit arithmetic: from an offset to a value and the offset behind
it. -/
abbrev WordReader := StateT Nat (Except Halt)

namespace WordReader

/-- The bytes of a buffer from one place to another. -/
def slice (d : List UInt8) (start stop : Nat) : Except Halt (List UInt8) :=
  if start ≤ stop ∧ stop ≤ d.length then .ok ((d.take stop).drop start) else .error .fault

/-- The next `n` bytes of a buffer. -/
def take (d : List UInt8) (n : Nat) : WordReader (List UInt8) := fun offset =>
  match (Word.checkedAdd offset n).filter (· ≤ d.length) with
  | some stop => (slice d offset stop).map (·, stop)
  | none => .error (.failed (.malformedInput (Word.saturatingAdd offset n) d.length))

/-- An array of the next `n` bytes. -/
def block (d : List UInt8) (n : Nat) : WordReader (Block n) := do
  match Block.ofList? n (← take d n) with
  | some b => return b
  | none => throw .fault

/-- The next byte. -/
def byte (d : List UInt8) : WordReader UInt8 := do return (← block d 1).toList.headD 0

/-- Weighs a count of elements of a width against what is left of a buffer. -/
def weigh (d : List UInt8) (count width : Nat) : WordReader Unit := fun offset =>
  let needed := Word.saturatingMul count (max width 1)
  match Word.checkedSub d.length offset with
  | none => .error .fault
  | some left =>
    if left < needed then
      .error (.failed (.malformedInput (Word.saturatingAdd offset needed) d.length))
    else
      .ok ((), offset)

/-- The value of a computation that does not read. -/
def lift {α : Type} (x : Except Error α) : WordReader α := fun offset =>
  (x.mapError Halt.failed).map (·, offset)

/-- The same read `n` times. -/
def repeated {α : Type} (read : WordReader α) : Nat → WordReader (List α)
  | 0 => pure []
  | n + 1 => do
    let x ← read
    let xs ← repeated read n
    return x :: xs

end WordReader

/-- Reads a value of a kind in 64-bit arithmetic. -/
def Kind.readWords (d : List UInt8) : Kind → WordReader Value
  | .u8 => do return .u8 (← WordReader.byte d)
  | .u64 => do return .u64 (u64OfBytes (← WordReader.block d 8).toList)
  | .i64 => do return .i64 (i64OfBytes (← WordReader.block d 8).toList)
  | .bool => do return .bool ((← WordReader.byte d) != 0)
  | .bytes length => do return .bytes (← WordReader.take d length.toNat)
  | .pubkey => do return .pubkey (← WordReader.block d 32)
  | .array element length => do
    return .list (← WordReader.repeated (element.readWords d) length.toNat)
  | .vec element => do
    let count := Bytes.toNat (← WordReader.block d countWidth).toList
    let width ← WordReader.lift (element.width.mapError Error.overflow)
    WordReader.weigh d count width
    return .list (← WordReader.repeated (element.readWords d) count)

namespace Layout

/-- Reads one value per field in 64-bit arithmetic. -/
def readWords (d : List UInt8) (layout : Layout) : WordReader (List Value) :=
  layout.fields.mapM (·.kind.readWords d)

/-- One value per field, read from the start of the buffer in 64-bit
arithmetic. -/
def decodeWords (layout : Layout) (d : List UInt8) : Except Halt (List Value) :=
  (layout.readWords d 0).map (·.1)

end Layout

/-! ## §2. Two readers in step. -/

/-- The cursor at an offset of a buffer. -/
def Cursor.within (d : List UInt8) (offset : Nat) : Cursor := ⟨offset, d.drop offset⟩

namespace Reader

variable {α β : Type} {d : List UInt8}

/-- From every offset of the buffer the two read the same value up to the same
offset, which lies in the buffer too, or fail with the same error. -/
structure InWords (d : List UInt8) (read : Reader α) (words : WordReader α) : Prop where
  ok : ∀ {offset : Nat} {a : α} {c : Cursor}, offset ≤ d.length →
    read (.within d offset) = .ok (a, c) →
      ∃ offset' ≤ d.length, c = .within d offset' ∧ words offset = .ok (a, offset')
  error : ∀ {offset : Nat} {e : Error}, offset ≤ d.length →
    read (.within d offset) = .error e → words offset = .error (.failed e)

theorem words_bind_ok {words : WordReader α} {f : α → WordReader β} {offset offset' : Nat} {a : α}
    (h : words offset = .ok (a, offset')) : (words >>= f) offset = f a offset' := by
  show (words offset).bind (fun p => f p.1 p.2) = _
  rw [h]
  rfl

theorem words_bind_error {words : WordReader α} {f : α → WordReader β} {offset : Nat} {e : Halt}
    (h : words offset = .error e) : (words >>= f) offset = .error e := by
  show (words offset).bind (fun p => f p.1 p.2) = _
  rw [h]
  rfl

namespace InWords

protected theorem pure (a : α) : InWords d (pure a) (pure a) := by
  constructor
  · intro offset a' c hoffset h
    cases h
    exact ⟨offset, hoffset, rfl, rfl⟩
  · intro offset e _ h
    cases h

protected theorem bind {read : Reader α} {words : WordReader α} {f : α → Reader β}
    {g : α → WordReader β} (h : InWords d read words) (hf : ∀ a, InWords d (f a) (g a)) :
    InWords d (read >>= f) (words >>= g) := by
  constructor
  · intro offset b c hoffset hread
    obtain ⟨a, c₁, hfirst, hsecond⟩ := ok_of_bind hread
    obtain ⟨offset₁, hoffset₁, rfl, hwords⟩ := h.ok hoffset hfirst
    rw [words_bind_ok hwords]
    exact (hf a).ok hoffset₁ hsecond
  · intro offset e hoffset hread
    rcases error_of_bind hread with hfirst | ⟨a, c₁, hfirst, hsecond⟩
    · exact words_bind_error (h.error hoffset hfirst)
    · obtain ⟨offset₁, hoffset₁, rfl, hwords⟩ := h.ok hoffset hfirst
      rw [words_bind_ok hwords]
      exact (hf a).error hoffset₁ hsecond

theorem map {read : Reader α} {words : WordReader α} (h : InWords d read words) (f : α → β) :
    InWords d (do return f (← read)) (do return f (← words)) :=
  h.bind fun a => InWords.pure (f a)

theorem repeated {read : Reader α} {words : WordReader α} (h : InWords d read words) (n : Nat) :
    InWords d (read.repeated n) (words.repeated n) := by
  induction n with
  | zero => exact InWords.pure []
  | succ n ih => exact h.bind fun a => ih.map (a :: ·)

theorem lift (x : Except Error α) : InWords d (Reader.lift x) (WordReader.lift x) := by
  constructor
  · intro offset a c hoffset h
    obtain ⟨rfl, rfl⟩ := of_lift_ok h
    exact ⟨offset, hoffset, rfl, rfl⟩
  · intro offset e _ h
    cases x with
    | ok a => cases h
    | error e' =>
      cases h
      rfl

end InWords

/-! ## §3. The primitive reads. -/

theorem length_rest_within (offset : Nat) :
    (Cursor.within d offset).rest.length = d.length - offset := List.length_drop

theorem size_within {offset : Nat} (h : offset ≤ d.length) :
    (Cursor.within d offset).size = d.length := by
  show offset + (d.drop offset).length = d.length
  rw [List.length_drop]
  omega

/-- The place behind the next `n` bytes. -/
theorem within_add (offset n : Nat) :
    (⟨offset + n, (d.drop offset).drop n⟩ : Cursor) = .within d (offset + n) := by
  rw [List.drop_drop]
  rfl

theorem words_take_ok (hd : d.length < sizeLimit) {offset n : Nat} (h : offset + n ≤ d.length) :
    WordReader.take d n offset = .ok ((d.drop offset).take n, offset + n) := by
  have hstop : (Word.checkedAdd offset n).filter (· ≤ d.length) = some (offset + n) := by
    rw [Word.checkedAdd, if_pos (Nat.lt_of_le_of_lt h hd)]
    exact Option.filter_eq_some_iff.2 ⟨rfl, decide_eq_true h⟩
  unfold WordReader.take WordReader.slice
  simp only [hstop, if_pos (And.intro (Nat.le_add_right offset n) h)]
  rw [List.drop_take, Nat.add_sub_cancel_left]
  rfl

theorem short_within {offset : Nat} (h : offset ≤ d.length) (n : Nat) :
    (Cursor.within d offset).short n = .malformedInput (Word.saturatingAdd offset n) d.length := by
  unfold Cursor.short
  rw [size_within h]
  rfl

/-- A sum that leaves the 64-bit range lies behind the buffer. -/
theorem words_take_short {offset n : Nat} (hoffset : offset ≤ d.length)
    (h : d.length < offset + n) :
    WordReader.take d n offset = .error (.failed ((Cursor.within d offset).short n)) := by
  have hstop : (Word.checkedAdd offset n).filter (· ≤ d.length) = none := by
    unfold Word.checkedAdd
    split
    next =>
      refine Option.filter_eq_none_iff.2 fun stop hstop hle => ?_
      cases hstop
      exact Nat.not_le.2 h (of_decide_eq_true hle)
    next => rfl
  unfold WordReader.take
  simp only [hstop]
  rw [short_within hoffset]

namespace InWords

/-- Two reads of the next `n` bytes are in step. -/
theorem of_need {read : Reader α} {words : WordReader α} (n : Nat)
    (hok : ∀ offset, offset + n ≤ d.length → ∃ a,
      read (.within d offset) = .ok (a, .within d (offset + n)) ∧
        words offset = .ok (a, offset + n))
    (hshort : ∀ offset, offset ≤ d.length → d.length < offset + n →
      read (.within d offset) = .error ((Cursor.within d offset).short n) ∧
        words offset = .error (.failed ((Cursor.within d offset).short n))) :
    InWords d read words := by
  constructor
  · intro offset a c hoffset h
    by_cases hn : offset + n ≤ d.length
    · obtain ⟨a', hread, hwords⟩ := hok offset hn
      rw [hread] at h
      cases h
      exact ⟨offset + n, hn, rfl, hwords⟩
    · rw [(hshort offset hoffset (Nat.not_le.1 hn)).1] at h
      cases h
  · intro offset e hoffset h
    by_cases hn : offset + n ≤ d.length
    · obtain ⟨a', hread, -⟩ := hok offset hn
      rw [hread] at h
      cases h
    · obtain ⟨hread, hwords⟩ := hshort offset hoffset (Nat.not_le.1 hn)
      rw [hread] at h
      cases h
      exact hwords

/-- A block that ends in the buffer. -/
theorem block_within {offset n : Nat} (h : offset + n ≤ d.length) :
    ∃ b : Block n, b.toList = (d.drop offset).take n ∧
      Reader.block n (.within d offset) = .ok (b, .within d (offset + n)) := by
  have hroom : n ≤ (Cursor.within d offset).rest.length := by
    rw [length_rest_within]
    omega
  refine ⟨⟨(d.drop offset).take n, List.length_take_of_le hroom⟩, rfl, ?_⟩
  rw [block_ok hroom]
  show Except.ok (_, (⟨offset + n, (d.drop offset).drop n⟩ : Cursor)) = _
  rw [within_add]
  rfl

theorem block_within_short {offset n : Nat} (hoffset : offset ≤ d.length)
    (h : d.length < offset + n) :
    Reader.block n (.within d offset) = .error ((Cursor.within d offset).short n) :=
  block_short (by rw [length_rest_within]; omega)

section

variable (hd : d.length < sizeLimit)

include hd

/-- The next bytes as they are. -/
theorem take (n : Nat) (f : List UInt8 → β) :
    InWords d (do return f (← Reader.block n).toList) (do return f (← WordReader.take d n)) := by
  refine of_need n (fun offset h => ?_) fun offset hoffset h => ?_
  · obtain ⟨b, hb, hread⟩ := block_within h
    refine ⟨f b.toList, ?_, ?_⟩
    · rw [bind_ok hread]
      rfl
    · rw [words_bind_ok (words_take_ok hd h), hb]
      rfl
  · exact ⟨bind_error (block_within_short hoffset h),
      words_bind_error (words_take_short hoffset h)⟩

theorem block (n : Nat) : InWords d (Reader.block n) (WordReader.block d n) := by
  refine of_need n (fun offset h => ?_) fun offset hoffset h => ?_
  · obtain ⟨b, hb, hread⟩ := block_within h
    refine ⟨b, hread, ?_⟩
    unfold WordReader.block
    rw [words_bind_ok (words_take_ok hd h), ← hb]
    simp only [Block.ofList?_toList]
    rfl
  · exact ⟨block_within_short hoffset h, words_bind_error (words_take_short hoffset h)⟩

/-- One byte is a block of one. -/
theorem byte : InWords d Reader.byte (WordReader.byte d) := by
  have hbyte : Reader.byte = (do return (← Reader.block 1).toList.headD 0) := by
    funext c
    obtain ⟨offset, rest⟩ := c
    cases rest <;> rfl
  rw [hbyte]
  exact (InWords.block hd 1).map fun b => b.toList.headD 0

end

/-- **A count is weighed exactly.**  What is left of the buffer does not fall
below zero, and a product that was cut off is more than is left. -/
theorem weigh (hd : d.length < 2 ^ 63) (count width : Nat) :
    InWords d (Reader.ensure (count * max width 1)) (WordReader.weigh d count width) := by
  have hlimit : sizeLimit - 1 = 2 ^ 64 - 1 := rfl
  have hneeded : ∀ left ≤ d.length,
      left < Word.saturatingMul count (max width 1) ↔ left < count * max width 1 := by
    intro left hleft
    unfold Word.saturatingMul
    omega
  have hweigh : ∀ offset ≤ d.length, WordReader.weigh d count width offset
      = if d.length - offset < count * max width 1 then
          .error (.failed ((Cursor.within d offset).short (count * max width 1)))
        else .ok ((), offset) := by
    intro offset hoffset
    have hsum : Word.saturatingAdd offset (Word.saturatingMul count (max width 1))
        = Word.saturatingAdd offset (count * max width 1) := by
      unfold Word.saturatingAdd Word.saturatingMul
      omega
    unfold WordReader.weigh Word.checkedSub
    simp only [if_pos hoffset, hneeded _ (Nat.sub_le d.length offset), hsum, short_within hoffset]
  constructor
  · intro offset u c hoffset h
    obtain ⟨hroom, rfl⟩ := of_ensure_ok h
    rw [length_rest_within] at hroom
    refine ⟨offset, hoffset, rfl, ?_⟩
    rw [hweigh offset hoffset, if_neg (Nat.not_lt.2 hroom)]
  · intro offset e hoffset h
    rw [hweigh offset hoffset]
    unfold Reader.ensure at h
    rw [length_rest_within] at h
    split at h
    next hshort =>
      cases h
      rw [if_pos hshort]
    next => cases h

end InWords

end Reader

/-! ## §4. Values and fields. -/

/-- **Every kind is read in step.** -/
theorem Kind.inWords_read {d : List UInt8} (hd : d.length < 2 ^ 63) (k : Kind) :
    Reader.InWords d k.read (k.readWords d) := by
  have hsize : d.length < sizeLimit := Nat.lt_trans hd (by decide)
  induction k with
  | u8 | bool => exact (Reader.InWords.byte hsize).map _
  | u64 | i64 | pubkey => exact (Reader.InWords.block hsize _).map _
  | bytes length => exact Reader.InWords.take hsize length.toNat Value.bytes
  | array element length ih => exact (ih.repeated length.toNat).map Value.list
  | vec element ih =>
    refine (Reader.InWords.block hsize countWidth).bind fun b => ?_
    refine (Reader.InWords.lift _).bind fun w => ?_
    refine (Reader.InWords.weigh hd _ w).bind fun _ => ?_
    exact (ih.repeated (Bytes.toNat b.toList)).map Value.list

namespace Layout

theorem inWords_read {d : List UInt8} (hd : d.length < 2 ^ 63) (layout : Layout) :
    Reader.InWords d layout.read (layout.readWords d) := by
  obtain ⟨fields⟩ := layout
  unfold read readWords
  dsimp only
  induction fields with
  | nil => exact Reader.InWords.pure []
  | cons field fields ih =>
    rw [List.mapM_cons, List.mapM_cons]
    exact (field.kind.inWords_read hd).bind fun value => ih.map (value :: ·)

/-- **In 64-bit arithmetic a decode gives the same values or the same error.**
No difference falls below zero and no slice leaves the buffer. -/
theorem decodeWords_eq {d : List UInt8} (hd : d.length < 2 ^ 63) (layout : Layout) :
    layout.decodeWords d = (layout.decode d).mapError Halt.failed := by
  have hstep := layout.inWords_read hd
  unfold decodeWords
  cases h : layout.decode d with
  | ok values =>
    obtain ⟨c, hread⟩ := decode_eq_ok_iff.1 h
    obtain ⟨offset, -, -, hwords⟩ := hstep.ok (Nat.zero_le _) hread
    rw [hwords]
    rfl
  | error e =>
    rw [hstep.error (Nat.zero_le _) (decode_eq_error_iff.1 h)]
    rfl

end Layout

end MerkleAirdrop
