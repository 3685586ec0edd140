/-
  MerkleAirdrop.Proofs.Layout.Parts
  ─────────────────────────────────
  **WHERE A WRITE STOPS, AND WHAT HAS GONE OUT BY THEN.**

  A value that is met as a kind falls into parts: itself, and if it is a list
  the parts of its items, one item after the other (`Kind.parts`).  A part by
  itself matches its kind or does not (`Part.isMatch`): its sort and its
  length are looked at, its items are not.  And a part by itself has bytes
  (`Part.bytes`): a scalar its wire form, a vector its count, an array none.

      Kind.write_eq_parts        a write goes through the parts in order
      Layout.encodeInto_outcome  what is appended and what is reported: all
                                 bytes, or those of the parts before the
                                 first that does not match

  So a write that fails is not undone: it leaves behind exactly what precedes
  the part that it reports.
-/
import MerkleAirdrop.Proofs.Layout.Wire

namespace MerkleAirdrop

/-! ## §1. Writes that stop somewhere in a row. -/

namespace Written

variable {ε δ α : Type}

/-- A write that completes if the check says so, and else stops at once. -/
def checked (ok : Bool) (bytes : List UInt8) (cause : ε) : Written ε :=
  if ok then done bytes else stopped cause

theorem sequence_singleton (w : Written ε) : sequence [w] = w := by
  obtain ⟨bytes, stop⟩ := w
  cases stop <;> simp [sequence, andThen, done]

theorem sequence_append (xs ys : List (Written ε)) :
    sequence (xs ++ ys) = (sequence xs).andThen (sequence ys) := by
  induction xs with
  | nil => rfl
  | cons x xs ih =>
    show x.andThen (sequence (xs ++ ys)) = (x.andThen (sequence xs)).andThen (sequence ys)
    rw [ih, andThen_assoc]

/-- Writes in a row may be grouped. -/
theorem sequence_flatMap (f : α → List (Written ε)) (xs : List α) :
    sequence (xs.flatMap f) = sequence (xs.map fun x => sequence (f x)) := by
  induction xs with
  | nil => rfl
  | cons x xs ih =>
    show _ = (sequence (f x)).andThen (sequence (xs.map fun x => sequence (f x)))
    rw [List.flatMap_cons, sequence_append, ih]

theorem mapStop_andThen (f : ε → δ) (a b : Written ε) :
    (a.andThen b).mapStop f = (a.mapStop f).andThen (b.mapStop f) := by
  obtain ⟨bytesA, stopA⟩ := a
  cases stopA <;> rfl

theorem mapStop_sequence (f : ε → δ) (xs : List (Written ε)) :
    (sequence xs).mapStop f = sequence (xs.map (mapStop f)) := by
  induction xs with
  | nil => rfl
  | cons x xs ih =>
    show (x.andThen (sequence xs)).mapStop f = (x.mapStop f).andThen (sequence (xs.map (mapStop f)))
    rw [mapStop_andThen, ih]

/-- **Checked writes in a row all complete, or the first that fails its check
is reported behind the bytes of those before it.** -/
theorem sequence_checked (ok : α → Bool) (bytes : α → List UInt8) (cause : α → ε)
    (xs : List α) :
    sequence (xs.map fun x => checked (ok x) (bytes x) (cause x)) = done (xs.flatMap bytes) ∨
      ∃ before x after, xs = before ++ x :: after ∧ (∀ y ∈ before, ok y = true) ∧ ok x = false ∧
        sequence (xs.map fun x => checked (ok x) (bytes x) (cause x))
          = ⟨before.flatMap bytes, some (cause x)⟩ := by
  induction xs with
  | nil => exact .inl rfl
  | cons x xs ih =>
    rw [List.map_cons]
    show (checked (ok x) (bytes x) (cause x)).andThen (sequence (xs.map _)) = _ ∨ _
    by_cases hx : ok x = true
    · have hhead : checked (ok x) (bytes x) (cause x) = done (bytes x) := if_pos hx
      rcases ih with hall | ⟨before, y, after, rfl, hbefore, hy, hstop⟩
      · left
        rw [hhead, hall, andThen_done_done, List.flatMap_cons]
      · right
        refine ⟨x :: before, y, after, rfl, List.forall_mem_cons.2 ⟨hx, hbefore⟩, hy, ?_⟩
        show (checked (ok x) (bytes x) (cause x)).andThen (sequence (List.map _ _)) = _
        rw [hhead, hstop, List.flatMap_cons]
        rfl
    · right
      rw [Bool.not_eq_true] at hx
      refine ⟨[], x, xs, rfl, List.forall_mem_nil _, hx, ?_⟩
      show (checked (ok x) (bytes x) (cause x)).andThen (sequence (List.map _ _)) = _
      rw [hx]
      rfl

end Written

/-! ## §2. The parts of a value. -/

/-- A part of a value, and the kind that it is met as. -/
structure Part where
  kind : Kind
  value : Value

namespace Part

/-- Whether the part is of its kind, whatever its items are: it has the sort of
the kind and, where the kind limits it, the length. -/
def isMatch : Part → Bool
  | ⟨.u8, .u8 _⟩ | ⟨.u64, .u64 _⟩ | ⟨.i64, .i64 _⟩ | ⟨.bool, .bool _⟩ | ⟨.pubkey, .pubkey _⟩ => true
  | ⟨.bytes length, .bytes v⟩ => decide (v.length = length.toNat)
  | ⟨.array _ length, .list items⟩ => decide (items.length = length.toNat)
  | ⟨.vec _, .list items⟩ => decide (items.length < countLimit)
  | _ => false

/-- The bytes of the part, without those of its items. -/
def bytes : Part → List UInt8
  | ⟨.array _ _, _⟩ => []
  | ⟨.vec _, .list items⟩ => Bytes.ofNat countWidth items.length
  | ⟨kind, value⟩ => kind.wire value

/-- Writes the part, without its items. -/
def write (p : Part) : Written Kind := .checked p.isMatch p.bytes p.kind

end Part

namespace Kind

/-- The parts of a value: itself, then the parts of its items in order. -/
def parts : Kind → Value → List Part
  | .array element length, .list items =>
    ⟨.array element length, .list items⟩ :: items.flatMap element.parts
  | .vec element, .list items => ⟨.vec element, .list items⟩ :: items.flatMap element.parts
  | kind, value => [⟨kind, value⟩]

/-- Behind a list come the parts of its items. -/
theorem sequence_parts_items {element : Kind} {items : List Value}
    (h : ∀ v, element.write v = .sequence ((element.parts v).map Part.write)) :
    Written.sequence ((items.flatMap element.parts).map Part.write)
      = .sequence (items.map element.write) := by
  rw [List.map_flatMap, Written.sequence_flatMap]
  congr 1
  exact List.map_congr_left fun item _ => (h item).symm

/-- **A write goes through the parts of its value in order.** -/
theorem write_eq_parts (k : Kind) :
    ∀ v : Value, k.write v = .sequence ((k.parts v).map Part.write) := by
  -- A list is one part and then the parts of its items; any other value is a
  -- single part, whose write is the write of the value.
  induction k with
  | array element length ih =>
    intro v
    cases v with
    | list items =>
      show _ = (Part.write ⟨.array element length, .list items⟩).andThen
        (.sequence ((items.flatMap element.parts).map Part.write))
      rw [sequence_parts_items ih]
      by_cases hlength : items.length = length.toNat
      · simp [write, Part.write, Part.isMatch, Part.bytes, Written.checked, hlength]
      · simp [write, Part.write, Part.isMatch, Written.checked, hlength]
    | _ => rfl
  | vec element ih =>
    intro v
    cases v with
    | list items =>
      show _ = (Part.write ⟨.vec element, .list items⟩).andThen
        (.sequence ((items.flatMap element.parts).map Part.write))
      rw [sequence_parts_items ih]
      by_cases hlength : items.length < countLimit
      · simp [write, Part.write, Part.isMatch, Part.bytes, Written.checked, hlength]
      · simp [write, Part.write, Part.isMatch, Written.checked, hlength]
    | _ => rfl
  | bytes length =>
    intro v
    show _ = Written.sequence [Part.write ⟨.bytes length, v⟩]
    rw [Written.sequence_singleton]
    cases v with
    | bytes bs =>
      by_cases hlength : bs.length = length.toNat
      · simp [write, Part.write, Part.isMatch, Part.bytes, wire, Written.checked, hlength]
      · simp [write, Part.write, Part.isMatch, Written.checked, hlength]
    | _ => rfl
  | u8 | u64 | i64 | bool | pubkey =>
    intro v
    show _ = Written.sequence [Part.write ⟨_, v⟩]
    rw [Written.sequence_singleton]
    cases v <;> rfl

end Kind

/-! ## §3. The parts of all fields. -/

namespace Layout

/-- The parts of one value per field, each with its field. -/
def parts (layout : Layout) (values : List Value) : List (Field × Part) :=
  (layout.fields.zip values).flatMap fun (field, value) => (field.kind.parts value).map (field, ·)

/-- One value per field is written part by part; a stop names the field. -/
theorem write_eq_parts {layout : Layout} {values : List Value}
    (h : values.length = layout.fields.length) :
    layout.write values = .sequence ((layout.parts values).map fun p =>
      .checked p.2.isMatch p.2.bytes (.valueMismatch p.1.name p.2.kind)) := by
  have hchecked : ∀ (field : Field) (part : Part),
      part.write.mapStop (Error.valueMismatch field.name)
        = .checked part.isMatch part.bytes (.valueMismatch field.name part.kind) := by
    intro field part
    unfold Part.write Written.checked
    split <;> rfl
  have hfield : ∀ (field : Field) (value : Value), field.write value
      = .sequence (((field.kind.parts value).map (field, ·)).map fun p : Field × Part =>
        .checked p.2.isMatch p.2.bytes (.valueMismatch p.1.name p.2.kind)) := by
    intro field value
    rw [Field.write, Kind.write_eq_parts, Written.mapStop_sequence, List.map_map, List.map_map]
    exact congrArg _ (List.map_congr_left fun part _ => hchecked field part)
  rw [write, if_pos h, parts, List.map_flatMap, Written.sequence_flatMap,
    ← List.map_uncurry_zip_eq_zipWith]
  exact congrArg _ (List.map_congr_left fun p _ => hfield p.1 p.2)

/-- **What encoding appends and what it reports.**

The buffer keeps what was in it.  As many values as there are fields are
written, or nothing is and the two counts are reported.  The write succeeds
exactly when the values fit, and then appends their wire form.  Else it reports
the first part that does not match, by its own kind and the name of the field
that it lies in, behind the bytes of the parts before it. -/
theorem encodeInto_outcome (layout : Layout) (values : List Value) (out : List UInt8) :
    out <+: (layout.encodeInto values out).bytes ∧
    (values.length ≠ layout.fields.length → layout.encodeInto values out
      = ⟨out, some (.fieldCount layout.fields.length values.length)⟩) ∧
    (values.length = layout.fields.length →
      ((layout.encodeInto values out).stop = none ↔ layout.Fits values) ∧
      (layout.Fits values → layout.encodeInto values out = .done (out ++ layout.wire values)) ∧
      (¬ layout.Fits values → ∃ before field part after,
        layout.parts values = before ++ (field, part) :: after ∧
        (∀ p ∈ before, p.2.isMatch = true) ∧ part.isMatch = false ∧
        layout.encodeInto values out = ⟨out ++ before.flatMap (fun p => p.2.bytes),
          some (.valueMismatch field.name part.kind)⟩)) := by
  refine ⟨List.prefix_append _ _, ?_, ?_⟩
  · intro hcount
    rw [encodeInto, write, if_neg hcount]
    show (⟨out ++ [], _⟩ : Written Error) = _
    rw [List.append_nil]
    rfl
  · intro hcount
    refine ⟨stop_encodeInto_iff layout values out, fun h => encodeInto_of_fits h out, ?_⟩
    intro hfits
    have hwrite := write_eq_parts hcount
    rcases Written.sequence_checked (fun p : Field × Part => p.2.isMatch) (fun p => p.2.bytes)
        (fun p => Error.valueMismatch p.1.name p.2.kind) (layout.parts values) with
      hall | ⟨before, ⟨field, part⟩, after, hparts, hbefore, hpart, hstop⟩
    · -- were all parts written, the values would fit
      rw [hall] at hwrite
      exact absurd ((stop_write_iff layout values).1 (by rw [hwrite]; rfl)) hfits
    · rw [hstop] at hwrite
      exact ⟨before, field, part, after, hparts, hbefore, hpart, by rw [encodeInto, hwrite]; rfl⟩

/-- Rows of two pairs of bytes, the last of which is a byte short: the rows'
count and three pairs have gone out. -/
theorem encodeInto_outcome_rows :
    let layout : Layout := ⟨[⟨"flag", .bool⟩, ⟨"rows", .vec (.array (.bytes 2) 2)⟩]⟩
    let values : List Value := [.bool true, .list [.list [.bytes [1, 2], .bytes [3, 4]],
      .list [.bytes [5, 6], .bytes [7]]]]
    ¬ layout.Fits values ∧
    layout.encodeInto values [255] = ⟨[255, 1, 2, 0, 0, 0, 1, 2, 3, 4, 5, 6],
      some (.valueMismatch "rows" (.bytes 2))⟩ ∧
    ∃ before field part after, layout.parts values = before ++ (field, part) :: after ∧
      (∀ p ∈ before, p.2.isMatch = true) ∧ part.isMatch = false ∧
      layout.encodeInto values [255] = ⟨[255] ++ before.flatMap (fun p => p.2.bytes),
        some (.valueMismatch field.name part.kind)⟩ := by
  intro layout values
  have hencode : layout.encodeInto values [255] = ⟨[255, 1, 2, 0, 0, 0, 1, 2, 3, 4, 5, 6],
      some (.valueMismatch "rows" (.bytes 2))⟩ := rfl
  have hfits : ¬ layout.Fits values := by
    intro h
    have hstop := (stop_encodeInto_iff layout values [255]).2 h
    rw [hencode] at hstop
    cases hstop
  exact ⟨hfits, hencode, ((encodeInto_outcome layout values [255]).2.2 rfl).2.2 hfits⟩

end Layout

end MerkleAirdrop
