/-
  MerkleAirdrop.Proofs.Layout.Take
  ────────────────────────────────
  **A RUN OF TYPED TAKES OVER THE VALUES IT WANTS.**

      Take.Takes take values a   in front of any values and at any field
                                 that has so many fields behind it, `take`
                                 uses up exactly `values` and gives `a`

  A take of the next value as a type is one step of such a run
  (`Takes.next`), so a record is put together by one step per field.  The
  other way round, fitting values are of the sorts that such a run asks for,
  one after the other (`Layout.Fits.next`).
-/
import MerkleAirdrop.Layout.Fields
import MerkleAirdrop.Proofs.Except
import MerkleAirdrop.Proofs.Layout.Wire

namespace MerkleAirdrop

/-! ## §1. Views of the values that hold blocks. -/

/-- Reading each of the written items gives the items. -/
theorem mapM_map_eq_some {α β : Type} {read : β → Option α} {write : α → β} {items : List α}
    (h : ∀ item ∈ items, read (write item) = some item) :
    (items.map write).mapM read = some items := by
  rw [Option.mapM_eq_some_iff, List.forall₂_map_left_iff, List.forall₂_same]
  exact h

namespace Value

theorem asBlock?_bytes {n : Nat} (b : Block n) : asBlock? n (.bytes b.toList) = some b :=
  Block.ofList?_toList b

theorem asHashes?_list (hashes : List Hash) :
    asHashes? (.list (hashes.map fun node => .bytes node.toList)) = some hashes :=
  mapM_map_eq_some fun node _ => asBlock?_bytes node

end Value

/-! ## §2. Runs of takes. -/

namespace Take

variable {α β : Type}

/-- The take uses up exactly these values and gives `a`. -/
def Takes (take : Take α) (values : List Value) (a : α) : Prop :=
  ∀ (fields : List Field) (rest : List Value) (index : Nat),
    index + values.length ≤ fields.length →
      take.run ⟨fields, values ++ rest, index⟩ = .ok a ⟨fields, rest, index + values.length⟩

theorem run_as {view : Value → Option α} {value : Value} {a : α} (hview : view value = some a)
    {fields : List Field} (rest : List Value) {index : Nat} (hindex : index < fields.length) :
    (as view).run ⟨fields, value :: rest, index⟩ = .ok a ⟨fields, rest, index + 1⟩ := by
  have hfield : fields[index]? = some fields[index] := List.getElem?_eq_getElem hindex
  have hget : ∀ state, (get : Take DecodedFields) state = .ok state state := fun _ => rfl
  have hset : ∀ state state', (set state' : Take PUnit) state = .ok ⟨⟩ state' := fun _ _ => rfl
  simp [as, next, EStateM.run, bind, EStateM.bind, hget, hset, pure, EStateM.pure, hfield, hview]

namespace Takes

protected theorem pure (a : α) : Takes (pure a) [] a := by
  intro fields rest index _
  rfl

/-- One value of the right sort, and the rest of the run behind it. -/
theorem next {view : Value → Option α} {f : α → Take β} {value : Value} {values : List Value}
    {a : α} {b : β} (hview : view value = some a) (h : Takes (f a) values b) :
    Takes (as view >>= f) (value :: values) b := by
  intro fields rest index hindex
  rw [List.length_cons] at hindex
  -- the first value is taken at `index`, the rest of the run starts one on
  show EStateM.bind (as view) f ⟨fields, value :: (values ++ rest), index⟩ = _
  have hfirst := run_as hview (values ++ rest) (show index < fields.length by omega)
  unfold EStateM.run at hfirst
  unfold EStateM.bind
  rw [hfirst]
  show (f a).run ⟨fields, values ++ rest, index + 1⟩ = _
  rw [h fields rest (index + 1) (by omega), List.length_cons, Nat.add_assoc, Nat.add_comm 1]

/-- Decoded fields with exactly the wanted values are built. -/
theorem build_eq {take : Take α} {values : List Value} {a : α} (h : Takes take values a)
    {fields : List Field} (hlength : values.length = fields.length) :
    take.build ⟨fields, values, 0⟩ = .ok a := by
  have hrun := h fields [] 0 (by omega)
  rw [List.append_nil] at hrun
  unfold build
  rw [hrun]

end Takes

end Take

/-! ## §3. The sort of a fitting value. -/

namespace Kind

theorem exists_u8 {v : Value} (h : u8.Fits v) : ∃ b, v = .u8 b := by
  cases v <;> simp_all [Fits]

theorem exists_u64 {v : Value} (h : u64.Fits v) : ∃ n, v = .u64 n := by
  cases v <;> simp_all [Fits]

theorem exists_i64 {v : Value} (h : i64.Fits v) : ∃ n, v = .i64 n := by
  cases v <;> simp_all [Fits]

theorem exists_bool {v : Value} (h : bool.Fits v) : ∃ b, v = .bool b := by
  cases v <;> simp_all [Fits]

theorem exists_pubkey {v : Value} (h : pubkey.Fits v) : ∃ address, v = .pubkey address := by
  cases v <;> simp_all [Fits]

theorem exists_block {n : UInt64} {v : Value} (h : (bytes n).Fits v) :
    ∃ b : Block n.toNat, v = .bytes b.toList := by
  obtain ⟨bs, rfl, hlength⟩ := fits_bytes_iff.1 h
  exact ⟨⟨bs, hlength⟩, rfl⟩

theorem exists_blocks {n : UInt64} {items : List Value} (h : ∀ item ∈ items, (bytes n).Fits item) :
    ∃ blocks : List (Block n.toNat), items = blocks.map fun b => .bytes b.toList := by
  induction items with
  | nil => exact ⟨[], rfl⟩
  | cons item items ih =>
    rw [List.forall_mem_cons] at h
    obtain ⟨b, rfl⟩ := exists_block h.1
    obtain ⟨blocks, rfl⟩ := ih h.2
    exact ⟨b :: blocks, rfl⟩

theorem exists_hashes {v : Value} (h : (vec (.bytes 32)).Fits v) :
    ∃ hashes : List Hash, v = .list (hashes.map fun node => .bytes node.toList) := by
  obtain ⟨items, rfl, -, hitems⟩ := fits_vec_iff.1 h
  obtain ⟨hashes, rfl⟩ := exists_blocks hitems
  exact ⟨hashes, rfl⟩

end Kind

namespace Layout.Fits

/-- What holds of every value of the sort in front of fitting values holds of
values that fit a kind of that sort first. -/
@[elab_as_elim]
theorem next {α : Type} {sort : α → Value} {name : String} {kind : Kind} {fields : List Field}
    {motive : List Value → Prop} {values : List Value}
    (h : Layout.Fits ⟨⟨name, kind⟩ :: fields⟩ values)
    (hkind : ∀ {v}, kind.Fits v → ∃ a, v = sort a)
    (hnext : ∀ a rest, Layout.Fits ⟨fields⟩ rest → motive (sort a :: rest)) :
    motive values := by
  obtain ⟨value, rest, hfit, hrest, rfl⟩ := List.forall₂_cons_left_iff.1 h
  obtain ⟨a, rfl⟩ := hkind hfit
  exact hnext a rest hrest

theorem eq_nil {values : List Value} (h : Layout.Fits ⟨[]⟩ values) : values = [] :=
  List.forall₂_nil_left_iff.1 h

end Layout.Fits

end MerkleAirdrop
