/-
  MerkleAirdrop.Proofs.Layout.Wire
  ────────────────────────────────
  **WHICH VALUES ARE WRITTEN, AND AS WHICH BYTES.**

  A value fits a kind (`Kind.Fits`) when it has the shape of the kind in all
  its parts: the same sort of scalar, the exact length of a byte string or an
  array, a countable vector, and fitting elements.  Its wire form
  (`Kind.wire`) is said without writes: a list of bytes by recursion on the
  kind.  Writing accepts exactly the fitting values and sends their wire form:

      Kind.stop_write_iff     (k.write v).stop = none ↔ k.Fits v
      Kind.write_of_fits      k.Fits v → k.write v = .done (k.wire v)
      Layout.stop_write_iff   (l.write vs).stop = none ↔ l.Fits vs
      Layout.write_of_fits    l.Fits vs → l.write vs = .done (l.wire vs)

  A fitting value never takes fewer bytes than its kind declares
  (`Kind.span_le_wire`).
-/
import Mathlib.Data.List.Forall2
import MerkleAirdrop.Layout.Encode
import MerkleAirdrop.Proofs.Layout.Width

namespace MerkleAirdrop

/-! ## §1. Writes in a row. -/

namespace Written

variable {ε : Type}

theorem stop_andThen_iff (a b : Written ε) :
    (a.andThen b).stop = none ↔ a.stop = none ∧ b.stop = none := by
  obtain ⟨bytesA, stopA⟩ := a
  cases stopA with
  | none => simp [andThen]
  | some cause => simp [andThen]

theorem stop_sequence_iff (ws : List (Written ε)) :
    (sequence ws).stop = none ↔ ∀ w ∈ ws, w.stop = none := by
  induction ws with
  | nil => simp [sequence, done]
  | cons w ws ih =>
    show (w.andThen (sequence ws)).stop = none ↔ _
    rw [stop_andThen_iff, ih, List.forall_mem_cons]

theorem sequence_map_done {α : Type} {f : α → Written ε} {g : α → List UInt8} :
    ∀ {xs : List α}, (∀ x ∈ xs, f x = .done (g x)) →
      sequence (xs.map f) = .done (xs.flatMap g) := by
  intro xs
  induction xs with
  | nil =>
    intro _
    rfl
  | cons x xs ih =>
    intro h
    show (f x).andThen (sequence (xs.map f)) = _
    rw [h x List.mem_cons_self, ih (fun y hy => h y (List.mem_cons_of_mem x hy))]
    rfl

theorem stop_mapStop_iff {δ : Type} (f : ε → δ) (w : Written ε) :
    (w.mapStop f).stop = none ↔ w.stop = none := by
  simp [mapStop]

end Written

/-! ## §2. One value. -/

namespace Kind

/-- The value is of the kind in all its parts. -/
def Fits : Kind → Value → Prop
  | .u8, .u8 _ | .u64, .u64 _ | .i64, .i64 _ | .bool, .bool _ | .pubkey, .pubkey _ => True
  | .bytes length, .bytes v => v.length = length.toNat
  | .array element length, .list items =>
    items.length = length.toNat ∧ ∀ item ∈ items, element.Fits item
  | .vec element, .list items =>
    items.length < countLimit ∧ ∀ item ∈ items, element.Fits item
  | _, _ => False

/-- The bytes of a value of the kind. -/
def wire : Kind → Value → List UInt8
  | .u8, .u8 v => [v]
  | .u64, .u64 v => bytesOfU64 v
  | .i64, .i64 v => bytesOfI64 v
  | .bool, .bool v => [if v then 1 else 0]
  | .bytes _, .bytes v => v
  | .pubkey, .pubkey v => v.toList
  | .array element _, .list items => items.flatMap element.wire
  | .vec element, .list items =>
    Bytes.ofNat countWidth items.length ++ items.flatMap element.wire
  | _, _ => []

theorem fits_bytes_iff {length : UInt64} {v : Value} :
    (bytes length).Fits v ↔ ∃ bs, v = .bytes bs ∧ bs.length = length.toNat := by
  cases v <;> simp [Fits]

theorem fits_array_iff {element : Kind} {length : UInt64} {v : Value} :
    (array element length).Fits v ↔ ∃ items, v = .list items ∧
      items.length = length.toNat ∧ ∀ item ∈ items, element.Fits item := by
  cases v <;> simp [Fits]

theorem fits_vec_iff {element : Kind} {v : Value} :
    (vec element).Fits v ↔ ∃ items, v = .list items ∧
      items.length < countLimit ∧ ∀ item ∈ items, element.Fits item := by
  cases v <;> simp [Fits]

theorem write_of_fits (k : Kind) : ∀ {v : Value}, k.Fits v → k.write v = .done (k.wire v) := by
  -- Kinds with a condition on lengths or elements are taken one by one; a
  -- scalar kind has only one sort of value, and no other fits it.
  induction k with
  | bytes length =>
    intro v h
    obtain ⟨bs, rfl, hlen⟩ := fits_bytes_iff.1 h
    rw [write, if_pos hlen, wire]
  | array element length ih =>
    intro v h
    obtain ⟨items, rfl, hlen, hitems⟩ := fits_array_iff.1 h
    rw [write, if_pos hlen, wire]
    exact Written.sequence_map_done fun item hitem => ih (hitems item hitem)
  | vec element ih =>
    intro v h
    obtain ⟨items, rfl, hlen, hitems⟩ := fits_vec_iff.1 h
    rw [write, if_pos hlen, wire,
      Written.sequence_map_done fun item hitem => ih (hitems item hitem)]
    rfl
  | _ =>
    intro v h
    cases v <;> simp_all [Fits, write, wire]

theorem fits_of_stop (k : Kind) : ∀ {v : Value}, (k.write v).stop = none → k.Fits v := by
  -- A value of another sort, or of another length, leaves a stop behind.
  induction k with
  | bytes length =>
    intro v h
    cases v with
    | bytes bs =>
      rw [write] at h
      split at h
      next hlen => exact hlen
      next => cases h
    | _ => cases h
  | array element length ih =>
    intro v h
    cases v with
    | list items =>
      rw [write] at h
      split at h
      next hlen =>
        rw [Written.stop_sequence_iff] at h
        exact ⟨hlen, fun item hitem => ih (h _ (List.mem_map_of_mem hitem))⟩
      next => cases h
    | _ => cases h
  | vec element ih =>
    intro v h
    cases v with
    | list items =>
      rw [write] at h
      split at h
      next hlen =>
        rw [Written.stop_andThen_iff, Written.stop_sequence_iff] at h
        exact ⟨hlen, fun item hitem => ih (h.2 _ (List.mem_map_of_mem hitem))⟩
      next => cases h
    | _ => cases h
  | _ =>
    intro v h
    cases v <;> trivial

/-- **Writing accepts exactly the fitting values.** -/
theorem stop_write_iff (k : Kind) (v : Value) : (k.write v).stop = none ↔ k.Fits v := by
  constructor
  · exact k.fits_of_stop
  · intro h
    rw [k.write_of_fits h]
    rfl

/-- Elements of a width take together at least so many times the width. -/
theorem mul_le_length_flatMap {w : Nat} {items : List Value} {f : Value → List UInt8}
    (h : ∀ item ∈ items, w ≤ (f item).length) :
    items.length * w ≤ (items.flatMap f).length := by
  induction items with
  | nil => simp
  | cons item items ih =>
    have hhead := h item List.mem_cons_self
    have htail := ih fun x hx => h x (List.mem_cons_of_mem item hx)
    rw [List.flatMap_cons, List.length_append, List.length_cons, Nat.add_mul]
    omega

/-- **A fitting value takes at least the bytes its kind declares.** -/
theorem span_le_wire (k : Kind) : ∀ {v : Value}, k.Fits v → k.span ≤ (k.wire v).length := by
  induction k with
  | array element length ih =>
    intro v h
    obtain ⟨items, rfl, hlen, hitems⟩ := fits_array_iff.1 h
    rw [span, wire, Nat.mul_comm, ← hlen]
    exact mul_le_length_flatMap fun item hitem => ih (hitems item hitem)
  | vec element ih =>
    intro v h
    obtain ⟨items, rfl, _⟩ := fits_vec_iff.1 h
    simp [span, wire]
  | _ =>
    intro v h
    cases v <;> simp_all [Fits, span, wire, bytesOfU64, bytesOfI64]

end Kind

/-! ## §3. All fields. -/

namespace Layout

/-- There is one value per field and each fits its kind. -/
def Fits (layout : Layout) (values : List Value) : Prop :=
  List.Forall₂ (fun field value => field.kind.Fits value) layout.fields values

/-- The bytes of one value per field. -/
def wire (layout : Layout) (values : List Value) : List UInt8 :=
  (List.zipWith (fun field value => field.kind.wire value) layout.fields values).flatten

theorem write_of_fits {layout : Layout} {values : List Value} (h : layout.Fits values) :
    layout.write values = .done (layout.wire values) := by
  obtain ⟨fields⟩ := layout
  rw [write, if_pos h.length_eq.symm, wire]
  unfold Fits at h
  dsimp only at h ⊢
  induction h with
  | nil => rfl
  | @cons field value fields values hfield _ ih =>
    show (field.write value).andThen (.sequence (List.zipWith Field.write fields values)) = _
    rw [ih, Field.write, field.kind.write_of_fits hfield]
    rfl

theorem fits_of_stop {layout : Layout} {values : List Value}
    (h : (layout.write values).stop = none) : layout.Fits values := by
  obtain ⟨fields⟩ := layout
  rw [write] at h
  split at h
  next hlen =>
    rw [Written.stop_sequence_iff] at h
    dsimp only at h hlen
    -- fields and values are equally many, so each pair was written
    refine List.forall₂_iff_zip.2 ⟨hlen.symm, ?_⟩
    intro field value hmem
    have hw := h (field.write value) (by
      rw [← List.map_uncurry_zip_eq_zipWith]
      exact List.mem_map_of_mem (f := Function.uncurry Field.write) hmem)
    rw [Field.write, Written.stop_mapStop_iff] at hw
    exact field.kind.fits_of_stop hw
  next => cases h

/-- **Writing accepts exactly the lists of fitting values.** -/
theorem stop_write_iff (layout : Layout) (values : List Value) :
    (layout.write values).stop = none ↔ layout.Fits values := by
  constructor
  · exact fits_of_stop
  · intro h
    rw [write_of_fits h]
    rfl

theorem stop_encodeInto_iff (layout : Layout) (values : List Value) (out : List UInt8) :
    (layout.encodeInto values out).stop = none ↔ layout.Fits values := by
  rw [encodeInto, Written.stop_andThen_iff, stop_write_iff]
  exact and_iff_right rfl

theorem encodeInto_of_fits {layout : Layout} {values : List Value} (h : layout.Fits values)
    (out : List UInt8) :
    layout.encodeInto values out = .done (out ++ layout.wire values) := by
  rw [encodeInto, write_of_fits h, Written.andThen_done_done]

end Layout

end MerkleAirdrop
