/-
  MerkleAirdrop.Proofs.Layout.Overflow
  ────────────────────────────────────
  **WIDTHS ARE EXACT OR OVERFLOW, AND WHERE A DECODE RUNS INTO THAT.**

  A width is worked out by products on the way up through arrays.  One of them
  leaves the 64-bit range exactly if some array on that way, taken as a plain
  number, does (`Kind.Overflows`); a length of zero further out does not help.

      Kind.width_outcome        the exact width, or the overflow of a product
      Layout.width_outcome      the exact sum, or which of the overflows
      Layout.decode_overflow_iff
                                a decode overflows exactly where it has read
                                the count of a vector whose element overflows

  A vector hides its element from the width of the layout but not from the
  reader, which works the element's width out whatever the count is.
-/
import MerkleAirdrop.Proofs.Layout.Words

namespace MerkleAirdrop

/-! ## §1. One width. -/

namespace Kind

/-- So many elements of a kind make an array that is met on the way down from
a kind.  The way leads through arrays and ends at a vector. -/
inductive HasArray (element : Kind) (length : UInt64) : Kind → Prop
  | self : HasArray element length (.array element length)
  | inside {inner : Kind} (h : HasArray element length inner) (n : UInt64) :
      HasArray element length (.array inner n)

/-- Some array that is met has `2 ^ 64` bytes or more, as a plain number. -/
def Overflows (k : Kind) : Prop :=
  ∃ element length, HasArray element length k ∧ sizeLimit ≤ element.span * length.toNat

theorem overflows_array_iff {element : Kind} {length : UInt64} :
    (array element length).Overflows ↔
      element.Overflows ∨ sizeLimit ≤ element.span * length.toNat := by
  constructor
  · rintro ⟨inner, n, harray, hproduct⟩
    cases harray with
    | self => exact .inr hproduct
    | inside h => exact .inl ⟨inner, n, h, hproduct⟩
  · rintro (⟨inner, n, harray, hproduct⟩ | hproduct)
    · exact ⟨inner, n, .inside harray length, hproduct⟩
    · exact ⟨element, length, .self, hproduct⟩

/-- Only arrays overflow. -/
theorem not_overflows {k : Kind} (h : ∀ element length, k ≠ .array element length) :
    ¬ k.Overflows := by
  rintro ⟨element, length, harray, -⟩
  cases harray with
  | self => exact h _ _ rfl
  | inside => exact h _ _ rfl

/-- **A width is exact, or a product overflows.** -/
theorem width_outcome (k : Kind) :
    (¬ k.Overflows → k.width = .ok k.span) ∧ (k.Overflows → k.width = .error .multiply) := by
  induction k with
  | array element length ih =>
    rw [overflows_array_iff]
    constructor
    · intro h
      rw [not_or, Nat.not_le] at h
      show (element.width >>= fun each => bounded .multiply (each * length.toNat)) = _
      rw [ih.1 h.1]
      exact if_pos h.2
    · intro h
      show (element.width >>= fun each => bounded .multiply (each * length.toNat)) = _
      -- the element comes first, and fails before the product is looked at
      by_cases helement : element.Overflows
      · rw [ih.2 helement]
        rfl
      · rw [ih.1 helement]
        exact if_neg (Nat.not_lt.2 (h.resolve_left helement))
  | _ => exact ⟨fun _ => rfl, fun h => absurd h (not_overflows nofun)⟩

theorem width_eq_error_iff {k : Kind} {cause : Overflow} :
    k.width = .error cause ↔ cause = .multiply ∧ k.Overflows := by
  by_cases hover : k.Overflows
  · rw [k.width_outcome.2 hover]
    exact ⟨fun h => ⟨(Except.error.inj h).symm, hover⟩, fun h => h.1 ▸ rfl⟩
  · rw [k.width_outcome.1 hover]
    exact ⟨nofun, fun h => absurd h.2 hover⟩

end Kind

/-! ## §2. Sums of widths. -/

namespace Layout

theorem span_cons (field : Field) (fields : List Field) :
    span ⟨field :: fields⟩ = field.kind.span + span ⟨fields⟩ := List.sum_cons

/-- Some field's width overflows, and the sum on top of `total` of the widths in
front of it, as plain numbers, does not. -/
def ProductFirst (total : Nat) (fields : List Field) : Prop :=
  ∃ front field back, fields = front ++ field :: back ∧ field.kind.Overflows ∧
    total + span ⟨front⟩ < sizeLimit

/-- A field whose width does not overflow is added to the sum. -/
theorem productFirst_cons_iff {total : Nat} {field : Field} {fields : List Field}
    (hfield : ¬ field.kind.Overflows) :
    ProductFirst total (field :: fields) ↔ ProductFirst (total + field.kind.span) fields := by
  constructor
  · rintro ⟨front, field', back, hfields, hover, hsum⟩
    cases front with
    | nil =>
      obtain ⟨rfl, -⟩ := List.cons.inj hfields
      exact absurd hover hfield
    | cons head front =>
      obtain ⟨rfl, htail⟩ := List.cons.inj hfields
      rw [span_cons, ← Nat.add_assoc] at hsum
      exact ⟨front, field', back, htail, hover, hsum⟩
  · rintro ⟨front, field', back, rfl, hover, hsum⟩
    refine ⟨field :: front, field', back, rfl, hover, ?_⟩
    rwa [span_cons, ← Nat.add_assoc]

theorem widthFrom_outcome (fields : List Field) : ∀ {total : Nat}, total < sizeLimit →
    ((∀ field ∈ fields, ¬ field.kind.Overflows) ∧ total + span ⟨fields⟩ < sizeLimit →
      widthFrom total fields = .ok (total + span ⟨fields⟩)) ∧
    (ProductFirst total fields → widthFrom total fields = .error .multiply) ∧
    (¬ ProductFirst total fields →
      ¬ ((∀ field ∈ fields, ¬ field.kind.Overflows) ∧ total + span ⟨fields⟩ < sizeLimit) →
      widthFrom total fields = .error .add) := by
  -- the fields are added one by one, so the sum so far is quantified over
  induction fields with
  | nil =>
    intro total htotal
    refine ⟨fun _ => rfl, ?_, fun _ h => absurd ⟨List.forall_mem_nil _, htotal⟩ h⟩
    rintro ⟨front, field, back, hfields, -⟩
    exact absurd hfields.symm (List.append_ne_nil_of_right_ne_nil _ (List.cons_ne_nil _ _))
  | cons field fields ih =>
    intro total htotal
    rw [List.forall_mem_cons]
    by_cases hfield : field.kind.Overflows
    · -- the width of a field is worked out before it is added
      have hwidth : widthFrom total (field :: fields) = .error .multiply := by
        rw [widthFrom, field.kind.width_outcome.2 hfield]
        rfl
      have hfirst : ProductFirst total (field :: fields) :=
        ⟨[], field, fields, rfl, hfield, htotal⟩
      exact ⟨fun h => absurd hfield h.1.1, fun _ => hwidth, fun h => absurd hfirst h⟩
    · have hstep : widthFrom total (field :: fields)
          = bounded .add (total + field.kind.span) >>= fun total => widthFrom total fields := by
        rw [widthFrom, field.kind.width_outcome.1 hfield]
        rfl
      rw [productFirst_cons_iff hfield, span_cons, ← Nat.add_assoc, hstep]
      by_cases hsum : total + field.kind.span < sizeLimit
      · obtain ⟨hok, hproduct, hadd⟩ := ih hsum
        rw [show bounded .add (total + field.kind.span) = .ok _ from if_pos hsum]
        exact ⟨fun h => hok ⟨h.1.2, h.2⟩, hproduct,
          fun hfirst h => hadd hfirst fun hrest => h ⟨⟨hfield, hrest.1⟩, hrest.2⟩⟩
      · rw [show bounded .add (total + field.kind.span) = .error .add from if_neg hsum]
        refine ⟨fun h => ?_, ?_, fun _ _ => rfl⟩
        · omega
        · rintro ⟨front, field', back, -, -, hfront⟩
          omega

/-- **The width of a layout is the exact sum, or the overflow that comes
first.** -/
theorem width_outcome (layout : Layout) :
    ((∀ field ∈ layout.fields, ¬ field.kind.Overflows) ∧ layout.span < sizeLimit →
      layout.width = .ok layout.span) ∧
    (ProductFirst 0 layout.fields → layout.width = .error .multiply) ∧
    (¬ ProductFirst 0 layout.fields →
      ¬ ((∀ field ∈ layout.fields, ¬ field.kind.Overflows) ∧ layout.span < sizeLimit) →
      layout.width = .error .add) := by
  have h := widthFrom_outcome layout.fields (show 0 < sizeLimit by decide)
  rw [Nat.zero_add] at h
  exact h

end Layout

/-! ## §3. Reads that overflow. -/

namespace Reader

variable {α β : Type}

/-- So many reads in a row lead from one cursor to the other. -/
def Leads (read : Reader α) (n : Nat) (c c' : Cursor) : Prop :=
  ∃ items, read.repeated n c = .ok (items, c')

theorem leads_zero_iff {read : Reader α} {c c' : Cursor} : read.Leads 0 c c' ↔ c' = c := by
  constructor
  · rintro ⟨items, h⟩
    cases h
    rfl
  · rintro rfl
    exact ⟨[], rfl⟩

theorem leads_succ_iff {read : Reader α} {n : Nat} {c c'' : Cursor} :
    read.Leads (n + 1) c c'' ↔ ∃ a c', read c = .ok (a, c') ∧ read.Leads n c' c'' := by
  constructor
  · rintro ⟨items, h⟩
    obtain ⟨a, c', hfirst, h⟩ := ok_of_bind h
    obtain ⟨rest, hrest, -⟩ := map_eq_ok_iff.1 h
    exact ⟨a, c', hfirst, rest, hrest⟩
  · rintro ⟨a, c', hfirst, rest, hrest⟩
    refine ⟨a :: rest, ?_⟩
    rw [repeated, bind_ok hfirst]
    exact map_eq_ok_iff.2 ⟨rest, hrest, rfl⟩

/-- The read overflows from the cursors that are as `P` says, in a product, and
from no other. -/
def OverflowsAt (read : Reader α) (P : Cursor → Prop) : Prop :=
  ∀ (c : Cursor) (cause : Overflow),
    read c = .error (.overflow cause) ↔ cause = .multiply ∧ P c

namespace OverflowsAt

theorem congr {read : Reader α} {P Q : Cursor → Prop} (h : OverflowsAt read P)
    (hPQ : ∀ c, P c ↔ Q c) : OverflowsAt read Q := by
  intro c cause
  rw [h c cause, hPQ c]

/-- A read that works out no width overflows nowhere. -/
theorem never {read : Reader α} (h : ∀ c cause, read c ≠ .error (.overflow cause)) :
    OverflowsAt read fun _ => False :=
  fun c cause => ⟨fun hread => absurd hread (h c cause), fun hfalse => hfalse.2.elim⟩

theorem byte : OverflowsAt Reader.byte fun _ => False := by
  refine never fun c cause h => ?_
  obtain ⟨offset, rest⟩ := c
  cases rest <;> cases h

theorem block (n : Nat) : OverflowsAt (Reader.block n) fun _ => False := by
  refine never fun c cause h => ?_
  by_cases hn : n ≤ c.rest.length
  · rw [block_ok hn] at h
    cases h
  · rw [block_short (Nat.not_le.1 hn)] at h
    cases h

theorem ensure (n : Nat) : OverflowsAt (Reader.ensure n) fun _ => False := by
  refine never fun c cause h => ?_
  by_cases hn : n ≤ c.rest.length
  · rw [ensure_ok hn] at h
    cases h
  · rw [ensure_short (Nat.not_le.1 hn)] at h
    cases h

protected theorem pure (a : α) : OverflowsAt (pure a : Reader α) fun _ => False :=
  never nofun

/-- The width of a kind is worked out without reading. -/
theorem width (k : Kind) :
    OverflowsAt (Reader.lift (k.width.mapError Error.overflow)) fun _ => k.Overflows := by
  intro c cause
  rw [← Kind.width_eq_error_iff]
  cases k.width with
  | ok w => exact ⟨nofun, nofun⟩
  | error e =>
    constructor
    · intro h
      cases h
      rfl
    · intro h
      cases h
      rfl

/-- Two steps overflow in the first, or in the second behind the first. -/
protected theorem bind {read : Reader α} {f : α → Reader β} {P : Cursor → Prop}
    {Q : α → Cursor → Prop} (hread : OverflowsAt read P) (hf : ∀ a, OverflowsAt (f a) (Q a)) :
    OverflowsAt (read >>= f) fun c => P c ∨ ∃ a c', read c = .ok (a, c') ∧ Q a c' := by
  intro c cause
  constructor
  · intro h
    rcases error_of_bind h with hfirst | ⟨a, c', hfirst, hsecond⟩
    · obtain ⟨hcause, hP⟩ := (hread c cause).1 hfirst
      exact ⟨hcause, .inl hP⟩
    · obtain ⟨hcause, hQ⟩ := (hf a c' cause).1 hsecond
      exact ⟨hcause, .inr ⟨a, c', hfirst, hQ⟩⟩
  · rintro ⟨hcause, hP | ⟨a, c', hfirst, hQ⟩⟩
    · exact bind_error ((hread c cause).2 ⟨hcause, hP⟩)
    · rw [bind_ok hfirst]
      exact (hf a c' cause).2 ⟨hcause, hQ⟩

theorem map {read : Reader α} {P : Cursor → Prop} (hread : OverflowsAt read P) (f : α → β) :
    OverflowsAt (do return f (← read)) P := by
  refine (hread.bind fun a => OverflowsAt.pure (f a)).congr fun c => ?_
  simp only [and_false, exists_false, or_false]

/-- **A repeated read overflows behind some of its reads.** -/
theorem repeated {read : Reader α} {P : Cursor → Prop} (hread : OverflowsAt read P) (n : Nat) :
    OverflowsAt (read.repeated n) fun c => ∃ i < n, ∃ c', read.Leads i c c' ∧ P c' := by
  induction n with
  | zero =>
    refine (OverflowsAt.pure []).congr fun c => ⟨False.elim, ?_⟩
    rintro ⟨i, hi, -⟩
    exact absurd hi (Nat.not_lt_zero i)
  | succ n ih =>
    refine (hread.bind fun a => ih.map (a :: ·)).congr fun c => ⟨?_, ?_⟩
    · rintro (hP | ⟨a, c₁, hfirst, i, hi, c', hleads, hP⟩)
      · exact ⟨0, Nat.zero_lt_succ n, c, leads_zero_iff.2 rfl, hP⟩
      · exact ⟨i + 1, Nat.succ_lt_succ hi, c', leads_succ_iff.2 ⟨a, c₁, hfirst, hleads⟩, hP⟩
    · rintro ⟨i, hi, c', hleads, hP⟩
      cases i with
      | zero => exact .inl (leads_zero_iff.1 hleads ▸ hP)
      | succ i =>
        obtain ⟨a, c₁, hfirst, hleads⟩ := leads_succ_iff.1 hleads
        exact .inr ⟨a, c₁, hfirst, i, Nat.lt_of_succ_lt_succ hi, c', hleads, hP⟩

end OverflowsAt

end Reader

/-! ## §4. Decodes that overflow. -/

/-- Reading a kind from a cursor reaches a vector, and reads its count, whose
elements are of a kind as `P` says.  The vector may be an element of arrays and
of other vectors, behind elements that are read. -/
def Kind.ReachesVec (P : Kind → Prop) : Kind → Cursor → Prop
  | .array element length, c =>
    ∃ i < length.toNat, ∃ c', element.read.Leads i c c' ∧ element.ReachesVec P c'
  | .vec element, c =>
    ∃ (count : Block countWidth) (c₁ : Cursor), Reader.block countWidth c = .ok (count, c₁) ∧
      (P element ∨
        ∃ w, element.width = .ok w ∧ Bytes.toNat count.toList * max w 1 ≤ c₁.rest.length ∧
          ∃ i < Bytes.toNat count.toList, ∃ c',
            element.read.Leads i c₁ c' ∧ element.ReachesVec P c')
  | _, _ => False

/-- Decoding a buffer reaches such a vector in some field, the fields in front of
it being read. -/
def Layout.ReachesVec (P : Kind → Prop) (layout : Layout) (d : List UInt8) : Prop :=
  ∃ front field back values c, layout.fields = front ++ field :: back ∧
    Layout.read ⟨front⟩ (.start d) = .ok (values, c) ∧ field.kind.ReachesVec P c

/-- Behind the count of a vector: the width of its element overflows, or one of
the elements that are read does. -/
theorem Reader.OverflowsAt.elements {element : Kind} {P : Cursor → Prop}
    (h : element.read.OverflowsAt P) (count : Nat) :
    (do let width ← Reader.lift (element.width.mapError Error.overflow)
        Reader.ensure (count * max width 1)
        return .list (← Reader.repeated element.read count) : Reader Value).OverflowsAt
      fun c => element.Overflows ∨
        ∃ w, element.width = .ok w ∧ count * max w 1 ≤ c.rest.length ∧
          ∃ i < count, ∃ c', element.read.Leads i c c' ∧ P c' := by
  refine ((width element).bind fun w => (ensure (count * max w 1)).bind fun _ =>
    (h.repeated count).map Value.list).congr fun c => or_congr_right ⟨?_, ?_⟩
  · rintro ⟨w, c₁, hlift, hensure | ⟨u, c₂, hensure, hitems⟩⟩
    · exact hensure.elim
    · obtain ⟨hw, rfl⟩ := of_lift_ok hlift
      obtain ⟨hroom, rfl⟩ := of_ensure_ok hensure
      exact ⟨w, Except.mapError_eq_ok_iff.1 hw, hroom, hitems⟩
  · rintro ⟨w, hw, hroom, hitems⟩
    refine ⟨w, c, ?_, .inr ⟨(), c, ensure_ok hroom, hitems⟩⟩
    rw [hw]
    rfl

/-- **A read overflows where it reaches a vector whose element overflows.** -/
theorem Kind.overflowsAt_read (k : Kind) : k.read.OverflowsAt (k.ReachesVec Overflows) := by
  induction k with
  | u8 | bool => exact Reader.OverflowsAt.byte.map _
  | u64 | i64 | bytes | pubkey => exact (Reader.OverflowsAt.block _).map _
  | array element length ih => exact (ih.repeated length.toNat).map Value.list
  | vec element ih =>
    refine ((Reader.OverflowsAt.block countWidth).bind fun b =>
      ih.elements (Bytes.toNat b.toList)).congr fun c => ?_
    exact iff_of_eq (false_or _)

namespace Layout

variable {P : Kind → Prop}

/-- The fields in front are read one after the other. -/
theorem read_cons_eq_ok_iff {field : Field} {fields : List Field} {c c' : Cursor}
    {values : List Value} :
    read ⟨field :: fields⟩ c = .ok (values, c') ↔ ∃ v c₁ rest,
      field.kind.read c = .ok (v, c₁) ∧ read ⟨fields⟩ c₁ = .ok (rest, c') ∧
        v :: rest = values := by
  unfold read
  rw [List.mapM_cons]
  constructor
  · intro h
    obtain ⟨v, c₁, hhead, h⟩ := Reader.ok_of_bind h
    obtain ⟨rest, hrest, hvalues⟩ := Reader.map_eq_ok_iff.1 h
    exact ⟨v, c₁, rest, hhead, hrest, hvalues⟩
  · rintro ⟨v, c₁, rest, hhead, hrest, hvalues⟩
    rw [Reader.bind_ok hhead]
    exact Reader.map_eq_ok_iff.2 ⟨rest, hrest, hvalues⟩

theorem overflowsAt_read (fields : List Field) :
    Reader.OverflowsAt (read ⟨fields⟩) fun c => ∃ front field back values c',
      fields = front ++ field :: back ∧ read ⟨front⟩ c = .ok (values, c') ∧
        field.kind.ReachesVec Kind.Overflows c' := by
  induction fields with
  | nil =>
    refine (Reader.OverflowsAt.pure []).congr fun c => ⟨False.elim, ?_⟩
    rintro ⟨front, field, back, values, c', hfields, -⟩
    exact absurd hfields.symm (List.append_ne_nil_of_right_ne_nil _ (List.cons_ne_nil _ _))
  | cons field fields ih =>
    have hread : read ⟨field :: fields⟩ = (do
        let v ← field.kind.read
        return v :: (← read ⟨fields⟩)) := List.mapM_cons
    rw [hread]
    refine (field.kind.overflowsAt_read.bind fun v => ih.map (v :: ·)).congr fun c => ⟨?_, ?_⟩
    · rintro (hhead | ⟨v, c₁, hhead, front, field', back, values, c', rfl, hfront, hreaches⟩)
      · exact ⟨[], field, fields, [], c, rfl, rfl, hhead⟩
      · exact ⟨field :: front, field', back, v :: values, c', rfl,
          read_cons_eq_ok_iff.2 ⟨v, c₁, values, hhead, hfront, rfl⟩, hreaches⟩
    · rintro ⟨front, field', back, values, c', hfields, hfront, hreaches⟩
      cases front with
      | nil =>
        obtain ⟨rfl, -⟩ := List.cons.inj hfields
        cases hfront
        exact .inl hreaches
      | cons head front =>
        obtain ⟨rfl, htail⟩ := List.cons.inj hfields
        obtain ⟨v, c₁, rest, hhead, hrest, -⟩ := read_cons_eq_ok_iff.1 hfront
        exact .inr ⟨v, c₁, hhead, front, field', back, rest, c', htail, hrest, hreaches⟩

/-- **A decode overflows exactly where it has read the count of a vector whose
element overflows**, and then in a product. -/
theorem decode_overflow_iff {layout : Layout} {d : List UInt8} {cause : Overflow} :
    layout.decode d = .error (.overflow cause) ↔
      cause = .multiply ∧ layout.ReachesVec Kind.Overflows d := by
  rw [decode_eq_error_iff]
  exact overflowsAt_read layout.fields (.start d) cause

/-! ## §5. All arithmetic. -/

/-- **Arithmetic is exact or overflows, and never wraps.**

The width of a kind is the exact number if no array that is met on the way down
to its vectors reaches `2 ^ 64`, and else the overflow of a product.  The width
of a layout is the exact sum if no field overflows and the sum stays in range.
Else it is the overflow of a product exactly if a field overflows that has less
than `2 ^ 64` in front of it, and the overflow of a sum if there is none.

A decode overflows exactly if it reaches a vector whose element overflows and
reads its count, whatever the count is.  No other step goes wrong: in 64-bit
arithmetic, where a difference below zero is a fault, every buffer is decoded
to the same values or the same error. -/
theorem overflow_outcome (k : Kind) (layout : Layout) (d : List UInt8) :
    ((¬ k.Overflows → k.width = .ok k.span) ∧ (k.Overflows → k.width = .error .multiply)) ∧
    (((∀ field ∈ layout.fields, ¬ field.kind.Overflows) ∧ layout.span < sizeLimit →
        layout.width = .ok layout.span) ∧
      (¬ ((∀ field ∈ layout.fields, ¬ field.kind.Overflows) ∧ layout.span < sizeLimit) →
        (layout.width = .error .multiply ↔ ProductFirst 0 layout.fields) ∧
        (¬ ProductFirst 0 layout.fields → layout.width = .error .add))) ∧
    (∀ cause, layout.decode d = .error (.overflow cause) ↔
      cause = .multiply ∧ layout.ReachesVec Kind.Overflows d) ∧
    (d.length < 2 ^ 63 → layout.decodeWords d = (layout.decode d).mapError Halt.failed) := by
  obtain ⟨hok, hproduct, hadd⟩ := layout.width_outcome
  refine ⟨k.width_outcome, ⟨hok, fun h => ⟨⟨fun hwidth => ?_, hproduct⟩, fun hfirst =>
    hadd hfirst h⟩⟩, fun cause => decode_overflow_iff, fun hd => layout.decodeWords_eq hd⟩
  -- were no product first, the sum would have overflowed
  by_contra hfirst
  rw [hadd hfirst h] at hwidth
  cases hwidth

/-- Rows whose width overflows, none of them in an array: the array overflows
all the same.  A vector of such arrays has a width, but an empty one is not
decoded. -/
theorem overflow_outcome_rows :
    let row : Kind := .array (.array .u64 (0x2000000000000000)) 0
    let layout : Layout := ⟨[⟨"id", .u64⟩, ⟨"rows", .vec row⟩]⟩
    let d : List UInt8 := [7, 0, 0, 0, 0, 0, 0, 0, 0, 0, 0, 0]
    row.Overflows ∧ row.width = .error .multiply ∧
    ((∀ field ∈ layout.fields, ¬ field.kind.Overflows) ∧ layout.span < sizeLimit) ∧
    layout.width = .ok 12 ∧
    layout.ReachesVec Kind.Overflows d ∧ layout.decode d = .error (.overflow .multiply) ∧
    d.length < 2 ^ 63 ∧ layout.decodeWords d = .error (.failed (.overflow .multiply)) := by
  intro row layout d
  obtain ⟨⟨-, hrow⟩, ⟨hlayout, -⟩, hdecode, hwords⟩ := overflow_outcome row layout d
  have hover : row.Overflows := ⟨.u64, 0x2000000000000000, .inside .self 0, by decide⟩
  have hfields : (∀ field ∈ layout.fields, ¬ field.kind.Overflows) ∧ layout.span < sizeLimit := by
    refine ⟨?_, by decide⟩
    simp only [layout, List.forall_mem_cons]
    exact ⟨Kind.not_overflows nofun, Kind.not_overflows nofun, List.forall_mem_nil _⟩
  have hreaches : layout.ReachesVec Kind.Overflows d := by
    refine ⟨[⟨"id", .u64⟩], ⟨"rows", .vec row⟩, [], [.u64 7], ⟨8, [0, 0, 0, 0]⟩, rfl, rfl, ?_⟩
    exact ⟨Block.zero countWidth, ⟨12, []⟩, rfl, .inl hover⟩
  have hd : d.length < 2 ^ 63 := by decide
  have herror := (hdecode .multiply).2 ⟨rfl, hreaches⟩
  refine ⟨hover, hrow hover, hfields, hlayout hfields, hreaches, herror, hd, ?_⟩
  rw [hwords hd, herror]
  rfl

end Layout

end MerkleAirdrop
