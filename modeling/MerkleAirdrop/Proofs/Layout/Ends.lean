/-
  MerkleAirdrop.Proofs.Layout.Ends
  ────────────────────────────────
  **WHERE THE FIELDS OF A BUFFER END, AND WHICH OF THEM IS REPORTED.**

  Most layouts are flat: a field is read in one piece, or is a vector of
  elements of one width.  The places up to which a flat field needs bytes can
  then be told from the buffer alone: a vector needs its count and then what
  the count stands for.

      Layout.exists_read     a flat layout is read if its last field ends in
                             the buffer
      Layout.read_of_find?   else the first place behind the buffer is reported
-/
import MerkleAirdrop.Proofs.Bytes
import MerkleAirdrop.Proofs.Layout.Pieces

namespace MerkleAirdrop

open Kind (TakesBytes)

/-! ## §1. Flat kinds. -/

namespace Kind

/-- Read in one piece, or a vector of elements of one width. -/
def isFlat : Kind → Bool
  | .array _ _ => false
  | .vec element => element.isFixed
  | _ => true

/-! ## §2. Where a field ends. -/

/-- The element count at a place of a buffer. -/
def countAt (d : List UInt8) (place : Nat) : Nat := Bytes.toNat ((d.drop place).take countWidth)

/-- Where a field that begins at a place of a buffer ends. -/
def endOf (d : List UInt8) (place : Nat) : Kind → Nat
  | .vec element => place + countWidth + countAt d place * element.span
  | kind => place + kind.span

/-- The places up to which a field needs bytes, in turn. -/
def ends (d : List UInt8) (place : Nat) (kind : Kind) : List Nat :=
  match kind with
  | .vec _ => [place + countWidth, kind.endOf d place]
  | _ => [kind.endOf d place]

theorem countAt_lt (d : List UInt8) (place : Nat) : countAt d place < 2 ^ 32 := by
  have hlength : ((d.drop place).take countWidth).length ≤ countWidth := List.length_take_le _ _
  calc countAt d place
      < 256 ^ ((d.drop place).take countWidth).length := Bytes.toNat_lt _
    _ ≤ 256 ^ countWidth := Nat.pow_le_pow_right (by decide) hlength
    _ = 2 ^ 32 := by decide

theorem le_endOf (d : List UInt8) (place : Nat) (k : Kind) : place ≤ k.endOf d place := by
  cases k with
  | vec element => exact Nat.le_add_right_of_le (Nat.le_add_right place countWidth)
  | _ => exact Nat.le_add_right place _

/-- A field needs bytes up to its end and not beyond. -/
theorem forall_ends_le_iff {d : List UInt8} {place : Nat} {k : Kind} {n : Nat} :
    (∀ e ∈ k.ends d place, e ≤ n) ↔ k.endOf d place ≤ n := by
  cases k with
  | vec element =>
    unfold ends
    rw [List.forall_mem_cons, List.forall_mem_singleton]
    exact ⟨And.right, fun h => ⟨Nat.le_trans (Nat.le_add_right _ _) h, h⟩⟩
  | _ => exact List.forall_mem_singleton

theorem endOf_of_isFixed {k : Kind} (h : k.isFixed = true) (d : List UInt8) (place : Nat) :
    k.endOf d place = place + k.span := by
  cases k with
  | vec element => cases h
  | _ => rfl

theorem ends_of_isFixed {k : Kind} (h : k.isFixed = true) (d : List UInt8) (place : Nat) :
    k.ends d place = [place + k.span] := by
  cases k with
  | vec element => cases h
  | _ => rfl

/-! ## §3. One flat field. -/

/-- What is flat and not of one width is a vector. -/
theorem eq_vec_of_isFlat {k : Kind} (hflat : k.isFlat = true) (h : ¬ k.isFixed = true) :
    ∃ element, k = .vec element ∧ element.isFixed = true := by
  cases k with
  | vec element => exact ⟨element, rfl, hflat⟩
  | array element length => cases hflat
  | _ => exact absurd rfl h

/-- A field that is read in one piece asks for all of it. -/
theorem read_short {k : Kind} (hflat : k.isFlat = true) (hfixed : k.isFixed = true) {c : Cursor}
    (h : c.rest.length < k.span) : k.read c = .error (c.short k.span) := by
  cases k with
  | u8 | bool => exact Reader.bind_error (Reader.byte_short h)
  | u64 | i64 | bytes | pubkey => exact Reader.bind_error (Reader.block_short h)
  | array element length => cases hflat
  | vec element => cases hfixed

/-- A vector whose count is in the buffer: its elements are weighed, then
read. -/
theorem read_vec_advance {element : Kind} (hwidth : element.TakesBytes) {d : List UInt8}
    {place : Nat} (h : place + countWidth ≤ d.length) :
    (vec element).read ((Cursor.start d).advance place)
      = (do Reader.ensure (countAt d place * element.span)
            return .list (← Reader.repeated element.read (countAt d place)) : Reader Value)
          ((Cursor.start d).advance (place + countWidth)) := by
  obtain ⟨w, hw, hpos⟩ := hwidth
  have hspan := element.width_eq_span hw
  have hcount : countWidth ≤ ((Cursor.start d).advance place).rest.length := by
    rw [Cursor.length_rest_advance]
    show countWidth ≤ d.length - place
    omega
  rw [read, Reader.bind_ok (Reader.block_ok hcount)]
  -- an element of at least a byte is weighed by its width
  show (Reader.lift (element.width.mapError Error.overflow) >>= _) _ = _
  rw [hw, Reader.bind_ok rfl, Nat.max_eq_left hpos, hspan, ← Cursor.advance_advance]
  rfl

/-- **A flat field is read if it ends in the buffer.** -/
theorem exists_read_advance {k : Kind} (hflat : k.isFlat = true)
    (hvec : k.VecElements TakesBytes) {d : List UInt8} {place : Nat}
    (h : k.endOf d place ≤ d.length) :
    ∃ v, k.read ((Cursor.start d).advance place)
      = .ok (v, (Cursor.start d).advance (k.endOf d place)) := by
  have hrest : ∀ n, ((Cursor.start d).advance n).rest.length = d.length - n :=
    Cursor.length_rest_advance (Cursor.start d)
  by_cases hfixed : k.isFixed = true
  · rw [endOf_of_isFixed hfixed] at h ⊢
    rw [← Cursor.advance_advance]
    exact exists_read hfixed (by rw [hrest]; omega)
  · obtain ⟨element, rfl, helement⟩ := eq_vec_of_isFlat hflat hfixed
    have hend : place + countWidth + countAt d place * element.span ≤ d.length := h
    have hroom : countAt d place * element.span
        ≤ ((Cursor.start d).advance (place + countWidth)).rest.length := by
      rw [hrest]
      omega
    obtain ⟨items, hitems⟩ := exists_repeated helement hroom
    refine ⟨.list items, ?_⟩
    rw [read_vec_advance hvec.1 (by omega), Reader.bind_ok (Reader.ensure_ok hroom),
      Reader.bind_ok hitems, Cursor.advance_advance]
    rfl

/-- **A flat field that does not end in the buffer is reported** at the first
place that it needs. -/
theorem read_of_find? {k : Kind} (hflat : k.isFlat = true) (hvec : k.VecElements TakesBytes)
    {d : List UInt8} {place : Nat} (hplace : place ≤ d.length) {needed : Nat}
    (h : (k.ends d place).find? (d.length < ·) = some needed) :
    k.read ((Cursor.start d).advance place)
      = .error (.malformedInput (min needed (sizeLimit - 1)) d.length) := by
  have hrest : ∀ n, ((Cursor.start d).advance n).rest.length = d.length - n :=
    Cursor.length_rest_advance (Cursor.start d)
  have hbehind := List.find?_some h
  rw [decide_eq_true_eq] at hbehind
  by_cases hfixed : k.isFixed = true
  · have hneeded := List.mem_of_find?_eq_some h
    rw [ends_of_isFixed hfixed, List.mem_singleton] at hneeded
    rw [read_short hflat hfixed (by rw [hrest]; omega), Cursor.short_advance_start hplace, hneeded]
  · obtain ⟨element, rfl, _⟩ := eq_vec_of_isFlat hflat hfixed
    unfold ends at h
    rw [List.find?_cons] at h
    split at h
    next hcount =>
      -- the count itself is not there
      rw [decide_eq_true_eq] at hcount
      injection h with hneeded
      have hshort : ((Cursor.start d).advance place).rest.length < countWidth := by
        rw [hrest]
        omega
      rw [read, Reader.bind_error (Reader.block_short hshort),
        Cursor.short_advance_start hplace, hneeded]
    next hcount =>
      -- the count is there, what it stands for is not
      rw [decide_eq_false_iff_not] at hcount
      have hneeded := List.mem_of_find?_eq_some h
      rw [List.mem_singleton] at hneeded
      have hend : needed = place + countWidth + countAt d place * element.span := hneeded
      have hshort : ((Cursor.start d).advance (place + countWidth)).rest.length
          < countAt d place * element.span := by
        rw [hrest]
        omega
      rw [read_vec_advance hvec.1 (by omega), Reader.bind_error (Reader.ensure_short hshort),
        Cursor.short_advance_start (by omega), hend]

end Kind

/-! ## §4. All fields. -/

namespace Layout

/-- Whether all fields are flat. -/
def isFlat (layout : Layout) : Bool := layout.fields.all (·.kind.isFlat)

/-- Where the last of some fields ends if the first begins at a place. -/
def endFrom (d : List UInt8) : Nat → List Field → Nat
  | place, [] => place
  | place, field :: fields => endFrom d (field.kind.endOf d place) fields

/-- The places up to which the fields need bytes, in turn. -/
def endsFrom (d : List UInt8) : Nat → List Field → List Nat
  | _, [] => []
  | place, field :: fields =>
    field.kind.ends d place ++ endsFrom d (field.kind.endOf d place) fields

theorem le_endFrom (d : List UInt8) (fields : List Field) :
    ∀ place, place ≤ endFrom d place fields := by
  induction fields with
  | nil =>
    intro place
    exact Nat.le_refl place
  | cons field fields ih =>
    intro place
    exact Nat.le_trans (field.kind.le_endOf d place) (ih _)

/-- The fields need bytes up to the end of the last and not beyond. -/
theorem forall_endsFrom_le_iff {d : List UInt8} {n : Nat} {fields : List Field} :
    ∀ {place}, place ≤ n →
      ((∀ e ∈ endsFrom d place fields, e ≤ n) ↔ endFrom d place fields ≤ n) := by
  induction fields with
  | nil =>
    intro place hplace
    exact ⟨fun _ => hplace, fun _ => List.forall_mem_nil _⟩
  | cons field fields ih =>
    intro place hplace
    unfold endsFrom endFrom
    rw [List.forall_mem_append, Kind.forall_ends_le_iff]
    constructor
    · -- the tail begins inside, because the first field ends there
      rintro ⟨hhead, htail⟩
      exact (ih hhead).1 htail
    · intro h
      have hhead := Nat.le_trans (le_endFrom d fields _) h
      exact ⟨hhead, (ih hhead).2 h⟩

/-- **A flat layout is read if its last field ends in the buffer.** -/
theorem exists_read {layout : Layout} (hflat : layout.isFlat = true)
    (hvec : layout.VecElements TakesBytes) {d : List UInt8} {place : Nat}
    (h : endFrom d place layout.fields ≤ d.length) :
    ∃ values c, layout.read ((Cursor.start d).advance place) = .ok (values, c) := by
  obtain ⟨fields⟩ := layout
  unfold isFlat at hflat
  unfold VecElements at hvec
  unfold read
  dsimp only at *
  induction fields generalizing place with
  | nil => exact ⟨[], _, rfl⟩
  | cons field fields ih =>
    rw [List.all_cons, Bool.and_eq_true] at hflat
    rw [List.forall_mem_cons] at hvec
    obtain ⟨value, hvalue⟩ := Kind.exists_read_advance hflat.1 hvec.1
      (Nat.le_trans (le_endFrom d fields _) h)
    obtain ⟨values, c, hvalues⟩ := ih hflat.2 hvec.2 h
    refine ⟨value :: values, c, ?_⟩
    rw [List.mapM_cons, Reader.bind_ok hvalue, Reader.bind_ok hvalues]
    rfl

/-- **A flat layout that does not end in the buffer is reported** at the first
place that it needs. -/
theorem read_of_find? {layout : Layout} (hflat : layout.isFlat = true)
    (hvec : layout.VecElements TakesBytes) {d : List UInt8} {place : Nat}
    (hplace : place ≤ d.length) {needed : Nat}
    (h : (endsFrom d place layout.fields).find? (d.length < ·) = some needed) :
    layout.read ((Cursor.start d).advance place)
      = .error (.malformedInput (min needed (sizeLimit - 1)) d.length) := by
  obtain ⟨fields⟩ := layout
  unfold isFlat at hflat
  unfold VecElements at hvec
  unfold read
  dsimp only at *
  induction fields generalizing place with
  | nil => cases h
  | cons field fields ih =>
    rw [List.all_cons, Bool.and_eq_true] at hflat
    rw [List.forall_mem_cons] at hvec
    rw [List.mapM_cons]
    rw [endsFrom, List.find?_append, Option.or_eq_some_iff] at h
    rcases h with hhead | ⟨hnone, htail⟩
    · exact Reader.bind_error (Kind.read_of_find? hflat.1 hvec.1 hplace hhead)
    · -- nothing of the first field lies behind the buffer, so it is read
      have hend : field.kind.endOf d place ≤ d.length := by
        refine Kind.forall_ends_le_iff.1 fun e he => ?_
        have hnot := List.find?_eq_none.1 hnone e he
        rw [decide_eq_true_eq] at hnot
        exact Nat.le_of_not_lt hnot
      obtain ⟨value, hvalue⟩ := Kind.exists_read_advance hflat.1 hvec.1 hend
      rw [Reader.bind_ok hvalue]
      exact Reader.bind_error (ih hend hflat.2 hvec.2 htail)

end Layout

/-! ## §5. Bytes in front. -/

theorem Kind.countAt_append (front d : List UInt8) (place : Nat) :
    countAt (front ++ d) (front.length + place) = countAt d place := by
  unfold countAt
  rw [List.drop_length_add_append]

/-- With bytes in front of it a field ends so much further on. -/
theorem Kind.endOf_append (front d : List UInt8) (place : Nat) (k : Kind) :
    k.endOf (front ++ d) (front.length + place) = front.length + k.endOf d place := by
  cases k with
  | vec element =>
    simp only [endOf, countAt_append, Nat.add_assoc]
  | _ => exact Nat.add_assoc _ _ _

theorem Kind.ends_append (front d : List UInt8) (place : Nat) (k : Kind) :
    k.ends (front ++ d) (front.length + place) = (k.ends d place).map (front.length + ·) := by
  have hend := k.endOf_append front d place
  cases k with
  | vec element =>
    unfold ends
    rw [hend, Nat.add_assoc]
    rfl
  | _ =>
    unfold ends
    rw [hend]
    rfl

theorem Layout.endsFrom_append (front d : List UInt8) (fields : List Field) :
    ∀ place, endsFrom (front ++ d) (front.length + place) fields
      = (endsFrom d place fields).map (front.length + ·) := by
  induction fields with
  | nil =>
    intro place
    rfl
  | cons field fields ih =>
    intro place
    unfold endsFrom
    rw [field.kind.ends_append, field.kind.endOf_append, ih, List.map_append]

end MerkleAirdrop
