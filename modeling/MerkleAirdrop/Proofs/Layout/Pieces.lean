/-
  MerkleAirdrop.Proofs.Layout.Pieces
  ──────────────────────────────────
  **READS OF PIECES WHOSE WIDTHS ARE KNOWN BEFOREHAND.**

      Reader.InPieces read widths   `read` takes pieces of these widths in
                                    turn: all of them if they end in the
                                    buffer, and else it asks for the end of
                                    the first that does not

  A primitive read takes one piece, and steps in a row take their pieces in a
  row.  So a kind without vectors is read in pieces, which are its leaves: a
  scalar or a byte string is one, an array has those of its elements one after
  the other.

      Kind.inPieces_read, Layout.inPieces_read
-/
import MerkleAirdrop.Proofs.Layout.Reader
import MerkleAirdrop.Proofs.Layout.Width
import Mathlib.Algebra.BigOperators.Group.List.Basic

namespace MerkleAirdrop

/-! ## §1. Cursors that advance. -/

namespace Cursor

/-- The cursor behind the next `n` bytes. -/
def advance (c : Cursor) (n : Nat) : Cursor := ⟨c.offset + n, c.rest.drop n⟩

theorem advance_advance (c : Cursor) (m n : Nat) :
    (c.advance m).advance n = c.advance (m + n) := by
  unfold advance
  rw [List.drop_drop, Nat.add_assoc]

theorem length_rest_advance (c : Cursor) (n : Nat) :
    (c.advance n).rest.length = c.rest.length - n := List.length_drop

theorem size_advance {c : Cursor} {n : Nat} (h : n ≤ c.rest.length) :
    (c.advance n).size = c.size := by
  unfold size
  rw [length_rest_advance]
  show c.offset + n + (c.rest.length - n) = c.offset + c.rest.length
  omega

/-- The failure to find `n` bytes at a place of a buffer. -/
theorem short_advance_start {d : List UInt8} {place : Nat} (h : place ≤ d.length) (n : Nat) :
    ((start d).advance place).short n
      = .malformedInput (min (place + n) (sizeLimit - 1)) d.length := by
  have hoffset : ((start d).advance place).offset = place := Nat.zero_add place
  have hsize : (start d).size = d.length := Nat.zero_add _
  unfold short
  rw [hoffset, size_advance h, hsize]

end Cursor

/-! ## §2. The ends of pieces. -/

/-- Where pieces of these widths end if the first begins at a place. -/
def pieceEnds : Nat → List Nat → List Nat
  | _, [] => []
  | place, width :: widths => (place + width) :: pieceEnds (place + width) widths

theorem pieceEnds_append (widths widths' : List Nat) :
    ∀ place, pieceEnds place (widths ++ widths')
      = pieceEnds place widths ++ pieceEnds (place + widths.sum) widths' := by
  induction widths with
  | nil =>
    intro place
    rfl
  | cons width widths ih =>
    intro place
    show (place + width) :: pieceEnds (place + width) (widths ++ widths') = _
    rw [ih, List.sum_cons, Nat.add_assoc]
    rfl

/-- Pieces end inside a buffer if the last of them does. -/
theorem forall_pieceEnds_le_iff {n : Nat} {widths : List Nat} :
    ∀ {place}, place ≤ n →
      ((∀ e ∈ pieceEnds place widths, e ≤ n) ↔ place + widths.sum ≤ n) := by
  induction widths with
  | nil =>
    intro place hplace
    exact ⟨fun _ => hplace, fun _ => List.forall_mem_nil _⟩
  | cons width widths ih =>
    intro place hplace
    show (∀ e ∈ (place + width) :: pieceEnds (place + width) widths, e ≤ n) ↔ _
    rw [List.forall_mem_cons, List.sum_cons, ← Nat.add_assoc]
    constructor
    · rintro ⟨hhead, htail⟩
      exact (ih hhead).1 htail
    · intro h
      have hhead : place + width ≤ n := by omega
      exact ⟨hhead, (ih hhead).2 h⟩

theorem le_of_mem_pieceEnds {widths : List Nat} :
    ∀ {place}, ∀ e ∈ pieceEnds place widths, place ≤ e := by
  induction widths with
  | nil =>
    intro place
    exact List.forall_mem_nil _
  | cons width widths ih =>
    intro place
    refine List.forall_mem_cons.2 ⟨Nat.le_add_right place width, fun e he => ?_⟩
    exact Nat.le_trans (Nat.le_add_right place width) (ih e he)

/-- Later pieces do not end earlier. -/
theorem pairwise_pieceEnds (widths : List Nat) :
    ∀ place, (pieceEnds place widths).Pairwise (· ≤ ·) := by
  induction widths with
  | nil =>
    intro place
    exact .nil
  | cons width widths ih =>
    intro place
    exact .cons le_of_mem_pieceEnds (ih (place + width))

/-! ## §3. Reads in pieces. -/

namespace Reader

variable {α β : Type}

/-- The read takes pieces of these widths, one after the other. -/
structure InPieces (read : Reader α) (widths : List Nat) : Prop where
  /-- If all pieces are there, they are taken. -/
  ok : ∀ c : Cursor, widths.sum ≤ c.rest.length → ∃ a, read c = .ok (a, c.advance widths.sum)
  /-- Else the end of the first that is not is asked for. -/
  error : ∀ (c : Cursor) {needed : Nat},
    (pieceEnds c.offset widths).find? (c.size < ·) = some needed →
      read c = .error (.malformedInput (min needed (sizeLimit - 1)) c.size)

namespace InPieces

/-- A read that needs `n` bytes takes one piece. -/
theorem of_need {read : Reader α} (n : Nat)
    (hok : ∀ c : Cursor, n ≤ c.rest.length → ∃ a, read c = .ok (a, c.advance n))
    (hshort : ∀ c : Cursor, c.rest.length < n → read c = .error (c.short n)) :
    InPieces read [n] := by
  constructor
  · intro c h
    rw [List.sum_singleton] at h ⊢
    exact hok c h
  · intro c needed h
    have hbehind := List.find?_some h
    have hneeded := List.mem_of_find?_eq_some h
    rw [decide_eq_true_eq] at hbehind
    have hend : needed = c.offset + n := List.mem_singleton.1 hneeded
    have hlt : c.rest.length < n := by
      have hsize : c.size = c.offset + c.rest.length := rfl
      omega
    rw [hshort c hlt, hend]
    rfl

theorem byte : InPieces Reader.byte [1] := by
  refine of_need 1 ?_ fun c => byte_short
  intro c h
  obtain ⟨offset, rest⟩ := c
  cases rest with
  | nil => exact absurd h (Nat.not_succ_le_zero 0)
  | cons b rest => exact ⟨b, byte_cons offset b rest⟩

theorem block (n : Nat) : InPieces (Reader.block n) [n] :=
  of_need n (fun _ h => ⟨_, block_ok h⟩) fun _ => block_short

protected theorem pure (a : α) : InPieces (pure a : Reader α) [] := by
  constructor
  · intro c _
    exact ⟨a, rfl⟩
  · intro c needed h
    cases h

/-- Steps in a row take their pieces in a row. -/
protected theorem bind {read : Reader α} {f : α → Reader β} {widths widths' : List Nat}
    (hread : InPieces read widths) (hf : ∀ a, InPieces (f a) widths') :
    InPieces (read >>= f) (widths ++ widths') := by
  constructor
  · intro c h
    rw [List.sum_append] at h ⊢
    obtain ⟨a, ha⟩ := hread.ok c (by omega)
    obtain ⟨b, hb⟩ := (hf a).ok (c.advance widths.sum) (by rw [c.length_rest_advance]; omega)
    refine ⟨b, ?_⟩
    rw [bind_ok ha, hb, Cursor.advance_advance]
  · intro c needed h
    rw [pieceEnds_append, List.find?_append, Option.or_eq_some_iff] at h
    rcases h with hfirst | ⟨hnone, hsecond⟩
    · exact bind_error (hread.error c hfirst)
    · -- no piece of the first step ends behind the buffer, so all are there
      have hsize : c.size = c.offset + c.rest.length := rfl
      have hends : c.offset + widths.sum ≤ c.size := by
        refine (forall_pieceEnds_le_iff (by omega)).1 fun e he => ?_
        have hnot := List.find?_eq_none.1 hnone e he
        rw [decide_eq_true_eq] at hnot
        exact Nat.le_of_not_lt hnot
      have hthere : widths.sum ≤ c.rest.length := by omega
      obtain ⟨a, ha⟩ := hread.ok c hthere
      rw [← Cursor.size_advance hthere] at hsecond ⊢
      rw [bind_ok ha]
      exact (hf a).error (c.advance widths.sum) hsecond

theorem map {read : Reader α} {widths : List Nat} (hread : InPieces read widths) (f : α → β) :
    InPieces (do return f (← read)) widths := by
  have hbind := hread.bind fun a => InPieces.pure (f a)
  rw [List.append_nil] at hbind
  exact hbind

/-- A repeated read takes its pieces so many times. -/
theorem repeated {read : Reader α} {widths : List Nat} (hread : InPieces read widths) (n : Nat) :
    InPieces (read.repeated n) (List.replicate n widths).flatten := by
  induction n with
  | zero => exact InPieces.pure []
  | succ n ih =>
    rw [List.replicate_succ, List.flatten_cons]
    exact hread.bind fun a => ih.map (a :: ·)

end InPieces

end Reader

/-! ## §4. Values and fields. -/

namespace Kind

/-- The widths of the leaves of a kind in order: whatever is not an array is
one leaf, an array has those of its elements. -/
def leaves : Kind → List Nat
  | .array element length => (List.replicate length.toNat element.leaves).flatten
  | kind => [kind.span]

theorem sum_leaves (k : Kind) : k.leaves.sum = k.span := by
  induction k with
  | array element length ih =>
    rw [leaves, List.sum_flatten, List.map_replicate, List.sum_replicate, ih, span, Nat.mul_comm]
    rfl
  | _ => exact List.sum_singleton

/-- **A kind without vectors is read in pieces, its leaves.** -/
theorem inPieces_read (k : Kind) : k.isFixed = true → k.read.InPieces k.leaves := by
  induction k with
  | u8 | bool =>
    intro _
    exact Reader.InPieces.byte.map _
  | u64 | i64 | bytes | pubkey =>
    intro _
    exact (Reader.InPieces.block _).map _
  | array element length ih =>
    intro hfixed
    exact ((ih hfixed).repeated length.toNat).map Value.list
  | vec element _ =>
    intro hfixed
    cases hfixed

/-- A kind without vectors is read if there are as many bytes as it declares. -/
theorem exists_read {k : Kind} (hfixed : k.isFixed = true) {c : Cursor}
    (h : k.span ≤ c.rest.length) : ∃ v, k.read c = .ok (v, c.advance k.span) := by
  have hok := (k.inPieces_read hfixed).ok c
  rw [k.sum_leaves] at hok
  exact hok h

/-- So are its elements one after the other. -/
theorem exists_repeated {k : Kind} (hfixed : k.isFixed = true) {count : Nat} {c : Cursor}
    (h : count * k.span ≤ c.rest.length) :
    ∃ items, k.read.repeated count c = .ok (items, c.advance (count * k.span)) := by
  have hok := ((k.inPieces_read hfixed).repeated count).ok c
  rw [List.sum_flatten, List.map_replicate, List.sum_replicate, k.sum_leaves] at hok
  exact hok h

end Kind

namespace Layout

/-- The widths of the leaves of all fields in order. -/
def leaves (layout : Layout) : List Nat := layout.fields.flatMap (·.kind.leaves)

theorem inPieces_read {layout : Layout} (hfixed : layout.isFixed = true) :
    layout.read.InPieces layout.leaves := by
  obtain ⟨fields⟩ := layout
  unfold isFixed at hfixed
  unfold read leaves
  dsimp only at hfixed ⊢
  induction fields with
  | nil => exact Reader.InPieces.pure []
  | cons field fields ih =>
    rw [List.all_cons, Bool.and_eq_true] at hfixed
    rw [List.mapM_cons, List.flatMap_cons]
    exact (field.kind.inPieces_read hfixed.1).bind fun value => (ih hfixed.2).map (value :: ·)

end Layout

end MerkleAirdrop
