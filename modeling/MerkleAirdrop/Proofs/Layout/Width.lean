/-
  MerkleAirdrop.Proofs.Layout.Width
  ─────────────────────────────────
  **WIDTHS AS PLAIN NUMBERS, AND WHAT THE ELEMENTS OF VECTORS MUST BE.**

  `Kind.span` is the width of a kind without the 64-bit limit, and what
  `Kind.width` gives whenever it gives a number:

      Kind.width_eq_span     k.width = .ok w → w = k.span
      Layout.width_eq_span   the same of the sum over fields

  A layout's own width says nothing about the elements of its vectors, but a
  reader works their widths out.  `Kind.VecElements P` states a property of
  every element kind of a vector, at any depth; the two properties used are
  that the width stays in range (`Kind.HasWidth`) and that it is in range and
  not zero (`Kind.TakesBytes`).
-/
import MerkleAirdrop.Layout.Kind
import MerkleAirdrop.Proofs.Except
import Mathlib.Algebra.GroupWithZero.Nat

namespace MerkleAirdrop

/-! ## §1. Widths without a limit. -/

/-- A number passes exactly if it is below the limit. -/
theorem bounded_eq_ok_iff {overflow : Overflow} {n m : Nat} :
    bounded overflow n = .ok m ↔ n < sizeLimit ∧ n = m := by
  unfold bounded
  split
  next h => simp [h]
  next h => simp [h]

namespace Kind

/-- The width of a kind as a plain number. -/
def span : Kind → Nat
  | .u8 | .bool => 1
  | .u64 | .i64 => 8
  | .bytes length => length.toNat
  | .pubkey => 32
  | .array element length => element.span * length.toNat
  | .vec _ => countWidth

theorem width_eq_span (k : Kind) : ∀ {w : Nat}, k.width = .ok w → w = k.span := by
  -- Only an array computes its width; the others have it written down.
  induction k with
  | array element length ih =>
    intro w h
    obtain ⟨each, heach, hproduct⟩ := Except.bind_eq_ok_iff.1 h
    obtain ⟨_, rfl⟩ := bounded_eq_ok_iff.1 hproduct
    rw [ih heach]
    rfl
  | _ =>
    intro w h
    simp only [width, Except.ok.injEq] at h
    simp [span, ← h]

end Kind

namespace Layout

/-- The sum of the fields' widths as a plain number. -/
def span (layout : Layout) : Nat := (layout.fields.map (·.kind.span)).sum

theorem widthFrom_eq_span (fields : List Field) : ∀ {total w : Nat},
    widthFrom total fields = .ok w → w = total + span ⟨fields⟩ ∧ (total < sizeLimit → w < sizeLimit) := by
  induction fields with
  | nil =>
    intro total w h
    cases h
    exact ⟨rfl, id⟩
  | cons field fields ih =>
    intro total w h
    obtain ⟨width, hwidth, h⟩ := Except.bind_eq_ok_iff.1 h
    obtain ⟨total', hsum, h⟩ := Except.bind_eq_ok_iff.1 h
    obtain ⟨hlimit, rfl⟩ := bounded_eq_ok_iff.1 hsum
    obtain ⟨hw, hbelow⟩ := ih h
    refine ⟨?_, fun _ => hbelow hlimit⟩
    rw [hw, field.kind.width_eq_span hwidth, Nat.add_assoc]
    rfl

/-- A width that stays below the limit is the sum of the fields'. -/
theorem width_eq_span {layout : Layout} {w : Nat} (h : layout.width = .ok w) :
    w = layout.span ∧ w < sizeLimit := by
  obtain ⟨hw, hlimit⟩ := widthFrom_eq_span layout.fields h
  exact ⟨hw.trans (Nat.zero_add _), hlimit (by decide)⟩

end Layout

/-! ## §2. Conditions on the elements of vectors. -/

namespace Kind

/-- The width is below the limit. -/
def HasWidth (k : Kind) : Prop := ∃ w, k.width = .ok w

/-- The width is below the limit and at least one byte. -/
def TakesBytes (k : Kind) : Prop := ∃ w, k.width = .ok w ∧ 1 ≤ w

/-- Every element kind of a vector in `k`, at any depth, is as `P` says. -/
def VecElements (P : Kind → Prop) : Kind → Prop
  | .array element _ => element.VecElements P
  | .vec element => P element ∧ element.VecElements P
  | _ => True

end Kind

/-- Every element kind of a vector in the layout, at any depth, is as `P`
says. -/
def Layout.VecElements (P : Kind → Prop) (layout : Layout) : Prop :=
  ∀ field ∈ layout.fields, field.kind.VecElements P

end MerkleAirdrop
