/-
  MerkleAirdrop.Proofs.Layout.Reader
  ──────────────────────────────────
  **READS ONE AFTER THE OTHER, AND READS OF KNOWN BYTES.**

  How a read in two steps succeeds and fails, what the primitive reads do,
  and the relation that round trips are stated with:

      Reader.Reads read bytes a   in front of any rest, `read` takes exactly
                                  `bytes` and gives `a`

  `Reads` composes: steps in a row take their bytes in a row
  (`Reads.bind`), and a repeated read takes the bytes of its elements one
  after the other (`Reads.repeated`).
-/
import MerkleAirdrop.Layout.Decode
import MerkleAirdrop.Proofs.Except

namespace MerkleAirdrop

namespace Reader

variable {α β : Type}

/-! ## §1. Two steps. -/

theorem bind_ok {read : Reader α} {f : α → Reader β} {c c' : Cursor} {a : α}
    (h : read c = .ok (a, c')) : (read >>= f) c = f a c' := by
  show (read c).bind (fun p => f p.1 p.2) = _
  rw [h]
  rfl

theorem bind_error {read : Reader α} {f : α → Reader β} {c : Cursor} {e : Error}
    (h : read c = .error e) : (read >>= f) c = .error e := by
  show (read c).bind (fun p => f p.1 p.2) = _
  rw [h]
  rfl

/-- A read in two steps that succeeds succeeds in both. -/
theorem ok_of_bind {read : Reader α} {f : α → Reader β} {c c'' : Cursor} {b : β}
    (h : (read >>= f) c = .ok (b, c'')) :
    ∃ a c', read c = .ok (a, c') ∧ f a c' = .ok (b, c'') := by
  cases hr : read c with
  | error e =>
    rw [bind_error hr] at h
    cases h
  | ok p =>
    rw [bind_ok hr] at h
    exact ⟨p.1, p.2, rfl, h⟩

/-- A read in two steps that fails fails in the first or in the second. -/
theorem error_of_bind {read : Reader α} {f : α → Reader β} {c : Cursor} {e : Error}
    (h : (read >>= f) c = .error e) :
    read c = .error e ∨ ∃ a c', read c = .ok (a, c') ∧ f a c' = .error e := by
  cases hr : read c with
  | error e' =>
    rw [bind_error hr] at h
    injection h with h
    exact .inl (h ▸ rfl)
  | ok p =>
    rw [bind_ok hr] at h
    exact .inr ⟨p.1, p.2, rfl, h⟩

/-- A read followed by a function succeeds when the read does. -/
theorem map_eq_ok_iff {read : Reader α} {f : α → β} {c c' : Cursor} {b : β} :
    (do return f (← read) : Reader β) c = .ok (b, c') ↔ ∃ a, read c = .ok (a, c') ∧ f a = b := by
  constructor
  · intro h
    obtain ⟨a, c₁, hread, h⟩ := ok_of_bind h
    cases h
    exact ⟨a, hread, rfl⟩
  · rintro ⟨a, hread, rfl⟩
    rw [bind_ok hread]
    rfl

/-! ## §2. The primitive reads. -/

theorem byte_cons (offset : Nat) (b : UInt8) (rest : List UInt8) :
    byte ⟨offset, b :: rest⟩ = .ok (b, ⟨offset + 1, rest⟩) := rfl

theorem byte_nil (offset : Nat) : byte ⟨offset, []⟩ = .error (Cursor.short ⟨offset, []⟩ 1) := rfl

theorem byte_short {c : Cursor} (h : c.rest.length < 1) : byte c = .error (c.short 1) := by
  obtain ⟨offset, rest⟩ := c
  have hrest : rest = [] := List.length_eq_zero_iff.1 (Nat.lt_one_iff.1 h)
  rw [hrest, byte_nil]

theorem block_ok {n : Nat} {c : Cursor} (h : n ≤ c.rest.length) :
    block n c = .ok (⟨c.rest.take n, List.length_take_of_le h⟩,
      ⟨c.offset + n, c.rest.drop n⟩) := by
  unfold block Block.take? Block.ofList?
  rw [dif_pos (List.length_take_of_le h)]

theorem block_short {n : Nat} {c : Cursor} (h : c.rest.length < n) :
    block n c = .error (c.short n) := by
  unfold block Block.take? Block.ofList?
  rw [dif_neg (by rw [List.length_take]; omega)]

/-- A block that was read is the next bytes. -/
theorem rest_of_block {n : Nat} {c c' : Cursor} {b : Block n} (h : block n c = .ok (b, c')) :
    c.rest = b.toList ++ c'.rest ∧ c'.offset = c.offset + n := by
  by_cases hn : n ≤ c.rest.length
  · rw [block_ok hn] at h
    injection h with h
    injection h with hb hc
    rw [← hb, ← hc]
    exact ⟨(List.take_append_drop n c.rest).symm, rfl⟩
  · rw [block_short (by omega)] at h
    cases h

/-- A byte that was read is the next one. -/
theorem rest_of_byte {c c' : Cursor} {b : UInt8} (h : byte c = .ok (b, c')) :
    c.rest = b :: c'.rest ∧ c'.offset = c.offset + 1 := by
  obtain ⟨offset, rest⟩ := c
  cases rest with
  | nil =>
    rw [byte_nil] at h
    cases h
  | cons b' rest =>
    rw [byte_cons] at h
    injection h with h
    injection h with hb hc
    rw [← hb, ← hc]
    exact ⟨rfl, rfl⟩

theorem ensure_ok {n : Nat} {c : Cursor} (h : n ≤ c.rest.length) : ensure n c = .ok ((), c) := by
  unfold ensure
  rw [if_neg (by omega)]

theorem ensure_short {n : Nat} {c : Cursor} (h : c.rest.length < n) :
    ensure n c = .error (c.short n) := by
  unfold ensure
  rw [if_pos h]

/-- What does not read moves nothing. -/
theorem of_lift_ok {x : Except Error α} {c c' : Cursor} {a : α} (h : lift x c = .ok (a, c')) :
    x = .ok a ∧ c' = c := by
  cases x with
  | error e => cases h
  | ok a' =>
    injection h with h
    injection h with ha hc
    exact ⟨by rw [ha], hc.symm⟩

/-- A check of what is left moves nothing. -/
theorem of_ensure_ok {n : Nat} {c c' : Cursor} {u : Unit} (h : ensure n c = .ok (u, c')) :
    n ≤ c.rest.length ∧ c' = c := by
  unfold ensure at h
  split at h
  next => cases h
  next hn =>
    injection h with h
    injection h with _ hc
    exact ⟨by omega, hc.symm⟩

/-! ## §3. Reads of known bytes. -/

/-- In front of any rest, `read` takes exactly `bytes` and gives `a`. -/
def Reads (read : Reader α) (bytes : List UInt8) (a : α) : Prop :=
  ∀ (offset : Nat) (rest : List UInt8),
    read ⟨offset, bytes ++ rest⟩ = .ok (a, ⟨offset + bytes.length, rest⟩)

namespace Reads

protected theorem pure (a : α) : Reads (pure a : Reader α) [] a := by
  intro offset rest
  rfl

protected theorem bind {read : Reader α} {f : α → Reader β} {front back : List UInt8} {a : α}
    {b : β} (hread : Reads read front a) (hf : Reads (f a) back b) :
    Reads (read >>= f) (front ++ back) b := by
  intro offset rest
  rw [List.append_assoc, bind_ok (hread offset (back ++ rest)), hf, List.length_append,
    Nat.add_assoc]

/-- A read followed by a function of its result takes the same bytes. -/
theorem map {read : Reader α} {bytes : List UInt8} {a : α} (h : Reads read bytes a) (f : α → β) :
    Reads (do return f (← read)) bytes (f a) := by
  rw [← List.append_nil bytes]
  exact h.bind (Reads.pure (f a))

theorem byte (b : UInt8) : Reads Reader.byte [b] b := by
  intro offset rest
  rfl

theorem block {n : Nat} (b : Block n) : Reads (Reader.block n) b.toList b := by
  intro offset rest
  obtain ⟨bytes, rfl⟩ := b
  rw [block_ok (by simp)]
  simp

/-- **A repeated read takes the bytes of its elements one after the other.** -/
theorem repeated {read : Reader α} {bytes : α → List UInt8} :
    ∀ {xs : List α}, (∀ x ∈ xs, Reads read (bytes x) x) →
      Reads (read.repeated xs.length) (xs.flatMap bytes) xs := by
  intro xs
  induction xs with
  | nil =>
    intro _
    exact Reads.pure []
  | cons x xs ih =>
    intro h
    have hhead := h x List.mem_cons_self
    have htail := ih fun y hy => h y (List.mem_cons_of_mem x hy)
    exact hhead.bind (htail.map (x :: ·))

end Reads

end Reader

/-! ## §4. The steps of a vector. -/

/-- A vector that was read: its count, the check of the count, its elements. -/
theorem Kind.ok_of_read_vec {element : Kind} {c c' : Cursor} {v : Value}
    (h : (vec element).read c = .ok (v, c')) :
    ∃ (b : Block countWidth) (c₁ : Cursor) (w : Nat) (items : List Value),
      Reader.block countWidth c = .ok (b, c₁) ∧ element.width = .ok w ∧
      Bytes.toNat b.toList * max w 1 ≤ c₁.rest.length ∧
      element.read.repeated (Bytes.toNat b.toList) c₁ = .ok (items, c') ∧ v = .list items := by
  obtain ⟨b, c₁, hblock, h₁⟩ := Reader.ok_of_bind h
  obtain ⟨w, c₂, hlift, h₂⟩ := Reader.ok_of_bind h₁
  obtain ⟨hw, hc₂⟩ := Reader.of_lift_ok hlift
  obtain ⟨u, c₃, hensure, h₃⟩ := Reader.ok_of_bind h₂
  obtain ⟨hroom, hc₃⟩ := Reader.of_ensure_ok hensure
  obtain ⟨items, c₄, hitems, h₄⟩ := Reader.ok_of_bind h₃
  rw [hc₃, hc₂] at hitems
  rw [hc₂] at hroom
  cases h₄
  exact ⟨b, c₁, w, items, hblock, Except.mapError_eq_ok_iff.1 hw, hroom, hitems, rfl⟩

/-- A vector is read when its count, its weight and its elements allow it. -/
theorem Kind.read_vec_of_weight {element : Kind} {w : Nat} (hw : element.width = .ok w)
    {c c₁ c' : Cursor} {b : Block countWidth} {items : List Value}
    (hblock : Reader.block countWidth c = .ok (b, c₁))
    (hweight : Bytes.toNat b.toList * max w 1 ≤ c₁.rest.length)
    (hitems : element.read.repeated (Bytes.toNat b.toList) c₁ = .ok (items, c')) :
    (vec element).read c = .ok (.list items, c') := by
  rw [read, Reader.bind_ok hblock]
  show (Reader.lift (element.width.mapError Error.overflow) >>= _) _ = _
  rw [hw, Reader.bind_ok rfl, Reader.bind_ok (Reader.ensure_ok hweight)]
  exact Reader.map_eq_ok_iff.2 ⟨items, hitems, rfl⟩

/-! ## §5. Buffers of known bytes. -/

/-- Bytes that a layout reads as values are decoded to them, whatever stands
behind. -/
theorem Layout.decode_of_reads {layout : Layout} {bytes : List UInt8} {values : List Value}
    (h : layout.read.Reads bytes values) (rest : List UInt8) :
    layout.decode (bytes ++ rest) = .ok values := by
  show (layout.read ⟨0, _⟩).map _ = _
  rw [h]
  rfl

end MerkleAirdrop
