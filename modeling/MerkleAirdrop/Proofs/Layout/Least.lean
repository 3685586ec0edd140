/-
  MerkleAirdrop.Proofs.Layout.Least
  ─────────────────────────────────
  **THE WIDTH OF A LAYOUT IS THE FEWEST BYTES THAT DECODE.**

      Layout.width_least   nothing shorter is decoded or written, and so many
                           zero bytes are decoded, to values whose vectors are
                           all empty; without vectors every buffer of that
                           width is decoded, every encoding has it, and a
                           shorter buffer is told the end of its first missing
                           leaf

  Neither reading nor writing looks at the width of the layout: what is read
  or written field by field adds up to it.
-/
import MerkleAirdrop.Proofs.Layout.Pieces
import MerkleAirdrop.Proofs.Layout.Reencode

namespace MerkleAirdrop

open Kind (HasWidth)

/-! ## §1. Nothing is shorter. -/

namespace Kind

/-- Elements of one width take together so many times the width. -/
theorem length_flatMap_of_forall {w : Nat} {items : List Value} {f : Value → List UInt8}
    (h : ∀ item ∈ items, (f item).length = w) :
    (items.flatMap f).length = items.length * w := by
  induction items with
  | nil => simp
  | cons item items ih =>
    rw [List.forall_mem_cons] at h
    rw [List.flatMap_cons, List.length_append, ih h.2, h.1, List.length_cons, Nat.succ_mul]
    omega

/-- Without vectors a fitting value takes exactly the bytes its kind declares. -/
theorem length_wire_of_isFixed (k : Kind) : k.isFixed = true →
    ∀ {v : Value}, k.Fits v → (k.wire v).length = k.span := by
  induction k with
  | array element length ih =>
    intro hfixed v h
    obtain ⟨items, rfl, hlen, hitems⟩ := fits_array_iff.1 h
    rw [span, wire, Nat.mul_comm, ← hlen]
    exact length_flatMap_of_forall fun item hitem => ih hfixed (hitems item hitem)
  | vec element _ =>
    intro hfixed
    cases hfixed
  | _ =>
    intro _ v h
    cases v <;> simp_all [Fits, span, wire, bytesOfU64, bytesOfI64]

end Kind

namespace Layout

theorem span_le_wire {layout : Layout} {values : List Value} (h : layout.Fits values) :
    layout.span ≤ (layout.wire values).length := by
  obtain ⟨fields⟩ := layout
  unfold Fits at h
  unfold span wire
  dsimp only at h ⊢
  induction h with
  | nil => exact Nat.le_refl 0
  | @cons field value fields values hfield _ ih =>
    have hhead := field.kind.span_le_wire hfield
    rw [List.map_cons, List.sum_cons, List.zipWith_cons_cons, List.flatten_cons,
      List.length_append]
    omega

theorem length_wire_of_isFixed {layout : Layout} {values : List Value}
    (hfixed : layout.isFixed = true) (h : layout.Fits values) :
    (layout.wire values).length = layout.span := by
  obtain ⟨fields⟩ := layout
  unfold isFixed at hfixed
  unfold Fits at h
  unfold span wire
  dsimp only at hfixed h ⊢
  induction h with
  | nil => rfl
  | @cons field value fields values hfield _ ih =>
    rw [List.all_cons, Bool.and_eq_true] at hfixed
    have hhead := field.kind.length_wire_of_isFixed hfixed.1 hfield
    have htail := ih hfixed.2
    rw [List.map_cons, List.sum_cons, List.zipWith_cons_cons, List.flatten_cons,
      List.length_append]
    omega

/-- A buffer that is decoded has at least the bytes that the layout declares. -/
theorem span_le_of_decode {layout : Layout} {d : List UInt8} {values : List Value}
    (h : layout.decode d = .ok values) : layout.span ≤ d.length := by
  obtain ⟨hfits, used, ⟨rest, rfl, _⟩, hmask, hsettle⟩ := consumes_of_decode h
  have hwire := span_le_wire hfits
  rw [← hsettle, length_settle hmask] at hwire
  rw [List.length_append]
  omega

/-- What is accepted is appended in its wire form. -/
theorem length_encodeInto {layout : Layout} {values : List Value} (h : layout.Fits values)
    (out : List UInt8) :
    (layout.encodeInto values out).bytes.length = out.length + (layout.wire values).length := by
  rw [encodeInto_of_fits h]
  exact List.length_append

end Layout

/-! ## §2. So many zero bytes. -/

/-- The value of a kind that zero bytes stand for: its vectors are empty. -/
def Kind.zeros : Kind → Value
  | .u8 => .u8 0
  | .u64 => .u64 0
  | .i64 => .i64 0
  | .bool => .bool false
  | .bytes length => .bytes (List.replicate length.toNat 0)
  | .pubkey => .pubkey (Block.zero 32)
  | .array element length => .list (List.replicate length.toNat element.zeros)
  | .vec _ => .list []

/-- The values of all fields that zero bytes stand for. -/
def Layout.zeros (layout : Layout) : List Value := layout.fields.map (·.kind.zeros)

/-- **As many zero bytes as a kind declares are read as its zero value.** -/
theorem Kind.reads_zeros (k : Kind) : k.VecElements HasWidth →
    k.read.Reads (List.replicate k.span 0) k.zeros := by
  induction k with
  | u8 =>
    intro _
    exact (Reader.Reads.byte 0).map Value.u8
  | bool =>
    intro _
    exact (Reader.Reads.byte 0).map fun b => Value.bool (b != 0)
  | u64 =>
    intro _
    exact (Reader.Reads.block (Block.zero 8)).map fun b => Value.u64 (u64OfBytes b.toList)
  | i64 =>
    intro _
    exact (Reader.Reads.block (Block.zero 8)).map fun b => Value.i64 (i64OfBytes b.toList)
  | bytes length =>
    intro _
    exact (Reader.Reads.block (Block.zero length.toNat)).map fun b => Value.bytes b.toList
  | pubkey =>
    intro _
    exact (Reader.Reads.block (Block.zero 32)).map Value.pubkey
  | array element length ih =>
    intro h
    have helements : ∀ v ∈ List.replicate length.toNat element.zeros,
        element.read.Reads (List.replicate element.span 0) v := by
      intro v hv
      rw [List.eq_of_mem_replicate hv]
      exact ih h
    have hread := Reader.Reads.repeated helements
    rw [List.length_replicate, List.flatMap_replicate, List.flatten_replicate_replicate,
      Nat.mul_comm] at hread
    exact hread.map Value.list
  | vec element _ =>
    intro h offset rest
    obtain ⟨w, hw⟩ := h.1
    -- the count is zero, so nothing is weighed and no element is read
    have hcount : Bytes.toNat (Block.zero countWidth).toList = 0 := rfl
    refine read_vec_of_weight hw (Reader.Reads.block (Block.zero countWidth) offset rest) ?_ ?_
    · rw [hcount, Nat.zero_mul]
      exact Nat.zero_le _
    · rw [hcount]
      rfl

theorem Layout.reads_zeros {layout : Layout} (h : layout.VecElements HasWidth) :
    layout.read.Reads (List.replicate layout.span 0) layout.zeros := by
  obtain ⟨fields⟩ := layout
  unfold VecElements at h
  unfold read span zeros
  dsimp only at h ⊢
  induction fields with
  | nil => exact Reader.Reads.pure []
  | cons field fields ih =>
    rw [List.forall_mem_cons] at h
    rw [List.mapM_cons, List.map_cons, List.map_cons, List.sum_cons,
      ← List.replicate_append_replicate]
    exact (field.kind.reads_zeros h.1).bind ((ih h.2).map (field.kind.zeros :: ·))

/-! ## §3. Without vectors. -/

namespace Layout

theorem sum_leaves (layout : Layout) : layout.leaves.sum = layout.span := by
  obtain ⟨fields⟩ := layout
  unfold leaves span
  dsimp only
  induction fields with
  | nil => rfl
  | cons field fields ih =>
    rw [List.flatMap_cons, List.sum_append, ih, field.kind.sum_leaves, List.map_cons,
      List.sum_cons]

/-- Where the leaves of a layout end, counted from the start of the buffer. -/
def leafEnds (layout : Layout) : List Nat := pieceEnds 0 layout.leaves

/-- The leaves end inside a buffer exactly if it has the declared bytes. -/
theorem forall_leafEnds_le_iff {layout : Layout} {n : Nat} :
    (∀ e ∈ layout.leafEnds, e ≤ n) ↔ layout.span ≤ n := by
  have hends : (∀ e ∈ layout.leafEnds, e ≤ n) ↔ 0 + layout.leaves.sum ≤ n :=
    forall_pieceEnds_le_iff (Nat.zero_le n)
  rw [layout.sum_leaves, Nat.zero_add] at hends
  exact hends

theorem exists_decode_of_isFixed {layout : Layout} (hfixed : layout.isFixed = true)
    {d : List UInt8} (h : layout.span ≤ d.length) : ∃ values, layout.decode d = .ok values := by
  rw [← layout.sum_leaves] at h
  obtain ⟨values, hread⟩ := (inPieces_read hfixed).ok (.start d) h
  exact ⟨values, decode_eq_ok_iff.2 ⟨_, hread⟩⟩

/-- **A buffer that is too short is told the least end of a leaf behind it.** -/
theorem exists_least_leafEnd {layout : Layout} (hfixed : layout.isFixed = true)
    (hlimit : layout.span < sizeLimit) {d : List UInt8} (h : d.length < layout.span) :
    ∃ needed, layout.decode d = .error (.malformedInput needed d.length) ∧
      needed ∈ layout.leafEnds ∧ d.length < needed ∧
      ∀ e ∈ layout.leafEnds, d.length < e → needed ≤ e := by
  cases hfind : layout.leafEnds.find? (d.length < ·) with
  | none =>
    -- then no leaf would end behind the buffer
    refine absurd (forall_leafEnds_le_iff.1 fun e he => ?_) (Nat.not_le_of_lt h)
    have hnot := List.find?_eq_none.1 hfind e he
    rw [decide_eq_true_eq] at hnot
    exact Nat.le_of_not_lt hnot
  | some needed =>
    have hmem := List.mem_of_find?_eq_some hfind
    have hbelow : needed ≤ layout.span := forall_leafEnds_le_iff.2 (Nat.le_refl _) needed hmem
    obtain ⟨hbehind, before, after, hends, hbefore⟩ := List.find?_eq_some_iff_append.1 hfind
    rw [decide_eq_true_eq] at hbehind
    refine ⟨needed, ?_, hmem, hbehind, ?_⟩
    · rw [← Cursor.size_start d] at hfind ⊢
      have hread := (inPieces_read hfixed).error (.start d) hfind
      rw [Nat.min_eq_left (by omega)] at hread
      exact decode_eq_error_iff.2 hread
    · -- the ends grow, so what stands after the first that is behind is no less
      intro e he hlt
      have hsorted : layout.leafEnds.Pairwise (· ≤ ·) := pairwise_pieceEnds layout.leaves 0
      rw [hends] at he hsorted
      rcases List.mem_append.1 he with he | he
      · have hinside := hbefore e he
        simp only [Bool.not_eq_true', decide_eq_false_iff_not] at hinside
        exact absurd hlt hinside
      · rcases List.mem_cons.1 he with rfl | he
        · exact Nat.le_refl e
        · exact List.rel_of_pairwise_cons (List.pairwise_append.1 hsorted).2.1 he

/-! ## §4. The width of a layout. -/

/-- **The width of a layout is the fewest bytes that decode.**

Buffers that are decoded and encodings that are accepted have at least so many
bytes, and so many zero bytes are decoded, with every vector empty.  In a
layout without vectors a buffer is decoded exactly if it has so many bytes,
every encoding has exactly so many, and a shorter buffer is told the least end
of a leaf that lies behind it. -/
theorem width_least {layout : Layout} {w : Nat} (hwidth : layout.width = .ok w)
    (hvec : layout.VecElements HasWidth) :
    (∀ d values, layout.decode d = .ok values → w ≤ d.length) ∧
    (∀ values out, (layout.encodeInto values out).stop = none →
      out.length + w ≤ (layout.encodeInto values out).bytes.length) ∧
    layout.decode (List.replicate w 0) = .ok layout.zeros ∧
    (layout.isFixed = true →
      (∀ d, (∃ values, layout.decode d = .ok values) ↔ w ≤ d.length) ∧
      (∀ values out, (layout.encodeInto values out).stop = none →
        (layout.encodeInto values out).bytes.length = out.length + w) ∧
      ∀ d, d.length < w → ∃ needed,
        layout.decode d = .error (.malformedInput needed d.length) ∧
        needed ∈ layout.leafEnds ∧ d.length < needed ∧
        ∀ e ∈ layout.leafEnds, d.length < e → needed ≤ e) := by
  obtain ⟨rfl, hlimit⟩ := width_eq_span hwidth
  refine ⟨fun d values => span_le_of_decode, ?_, ?_, fun hfixed => ⟨?_, ?_, ?_⟩⟩
  · intro values out hstop
    have hfits := (stop_encodeInto_iff layout values out).1 hstop
    rw [length_encodeInto hfits]
    exact Nat.add_le_add_left (span_le_wire hfits) _
  · have hzeros := decode_of_reads (reads_zeros hvec) []
    rw [List.append_nil] at hzeros
    exact hzeros
  · intro d
    exact ⟨fun ⟨_, h⟩ => span_le_of_decode h, exists_decode_of_isFixed hfixed⟩
  · intro values out hstop
    have hfits := (stop_encodeInto_iff layout values out).1 hstop
    rw [length_encodeInto hfits, length_wire_of_isFixed hfixed hfits]
  · intro d
    exact exists_least_leafEnd hfixed hlimit

/-- Two vectors in an array are both empty in the least buffer; a flag and two
pairs of bytes end at 1, 3 and 5. -/
theorem width_least_pairs :
    width ⟨[⟨"rows", .array (.vec (.array .u64 2)) 2⟩, ⟨"tail", .bytes 3⟩]⟩ = .ok 11 ∧
    VecElements HasWidth ⟨[⟨"rows", .array (.vec (.array .u64 2)) 2⟩, ⟨"tail", .bytes 3⟩]⟩ ∧
    decode ⟨[⟨"rows", .array (.vec (.array .u64 2)) 2⟩, ⟨"tail", .bytes 3⟩]⟩ (List.replicate 11 0)
      = .ok [.list [.list [], .list []], .bytes [0, 0, 0]] ∧
    width ⟨[⟨"flag", .bool⟩, ⟨"pairs", .array (.bytes 2) 2⟩]⟩ = .ok 5 ∧
    isFixed ⟨[⟨"flag", .bool⟩, ⟨"pairs", .array (.bytes 2) 2⟩]⟩ = true ∧
    leafEnds ⟨[⟨"flag", .bool⟩, ⟨"pairs", .array (.bytes 2) 2⟩]⟩ = [1, 3, 5] ∧
    ∃ needed, decode ⟨[⟨"flag", .bool⟩, ⟨"pairs", .array (.bytes 2) 2⟩]⟩ [1, 7]
        = .error (.malformedInput needed 2) ∧
      needed ∈ [1, 3, 5] ∧ 2 < needed ∧ ∀ e ∈ [1, 3, 5], 2 < e → needed ≤ e := by
  have hrows : VecElements HasWidth
      ⟨[⟨"rows", .array (.vec (.array .u64 2)) 2⟩, ⟨"tail", .bytes 3⟩]⟩ := by
    intro field hfield
    simp only [List.mem_cons, List.not_mem_nil, or_false] at hfield
    rcases hfield with rfl | rfl
    · exact ⟨⟨16, rfl⟩, trivial⟩
    · trivial
  have hpairs : VecElements HasWidth ⟨[⟨"flag", .bool⟩, ⟨"pairs", .array (.bytes 2) 2⟩]⟩ := by
    intro field hfield
    simp only [List.mem_cons, List.not_mem_nil, or_false] at hfield
    rcases hfield with rfl | rfl <;> trivial
  refine ⟨rfl, hrows, (width_least rfl hrows).2.2.1, rfl, rfl, rfl, ?_⟩
  exact ((width_least rfl hpairs).2.2.2 rfl).2.2 [1, 7] (by decide)

end Layout

end MerkleAirdrop
