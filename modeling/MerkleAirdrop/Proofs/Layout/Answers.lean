/-
  MerkleAirdrop.Proofs.Layout.Answers
  ───────────────────────────────────
  **WHAT TYPED TAKES ANSWER, WHATEVER WAS TAKEN BEFORE.**

  A row of takes is run to its end: a take that fails uses up its field all
  the same, and the next one goes on behind it.

      DecodedFields.after_eq      what is left behind a row of takes is
                                  settled by how many there were
      Layout.answers_positional   the answer number `i` depends on the type
                                  asked for, field number `i` and its value
-/
import MerkleAirdrop.Proofs.Layout.Canonical
import MerkleAirdrop.Proofs.Layout.Take

namespace MerkleAirdrop

/-! ## §1. The types of takes. -/

/-- The types that a value can be taken as. -/
inductive TakeType where
  | u8
  | u64
  | i64
  | bool
  | pubkey
  | block (n : Nat)
  | hashes
  deriving DecidableEq, Repr

namespace TakeType

/-- What a take of this type gives. -/
abbrev Carrier : TakeType → Type
  | u8 => UInt8
  | u64 => UInt64
  | i64 => Int64
  | bool => Bool
  | pubkey => Address
  | block n => Block n
  | hashes => List Hash

/-- The field value that holds something of this type. -/
def value : (t : TakeType) → t.Carrier → Value
  | u8, v => .u8 v
  | u64, v => .u64 v
  | i64, v => .i64 v
  | bool, v => .bool v
  | pubkey, v => .pubkey v
  | block _, v => .bytes (Block.toList v)
  | hashes, nodes => .list (List.map (fun node : Hash => .bytes node.toList) nodes)

/-- What a value holds, if it is of this type. -/
def view : (t : TakeType) → Value → Option t.Carrier
  | u8 => Value.asU8?
  | u64 => Value.asU64?
  | i64 => Value.asI64?
  | bool => Value.asBool?
  | pubkey => Value.asPubkey?
  | block n => Value.asBlock? n
  | hashes => Value.asHashes?

/-- The take of this type. -/
def take : (t : TakeType) → Take t.Carrier
  | u8 => Take.u8
  | u64 => Take.u64
  | i64 => Take.i64
  | bool => Take.bool
  | pubkey => Take.pubkey
  | block n => Take.block n
  | hashes => Take.hashes

theorem take_eq_as (t : TakeType) : t.take = Take.as t.view := by
  cases t <;> rfl

end TakeType

namespace Value

theorem asBlock?_eq_some_iff {n : Nat} {v : Value} {b : Block n} :
    asBlock? n v = some b ↔ v = .bytes b.toList := by
  cases v with
  | bytes bs =>
    show Block.ofList? n bs = some b ↔ _
    rw [Block.ofList?_eq_some_iff, Value.bytes.injEq, eq_comm]
  | _ => simp [asBlock?]

/-- Items that are all byte strings of one length are those of the blocks they
hold. -/
theorem mapM_asBlock?_eq_some_iff {n : Nat} {items : List Value} {nodes : List (Block n)} :
    items.mapM (asBlock? n) = some nodes ↔ items = nodes.map fun node => .bytes node.toList := by
  rw [Option.mapM_eq_some_iff]
  simp only [asBlock?_eq_some_iff]
  rw [← List.forall₂_map_right_iff, List.forall₂_eq_eq_eq]

theorem asHashes?_eq_some_iff {v : Value} {nodes : List Hash} :
    asHashes? v = some nodes ↔ v = .list (nodes.map fun node => .bytes node.toList) := by
  cases v with
  | list items =>
    show items.mapM (asBlock? 32) = some nodes ↔ _
    rw [mapM_asBlock?_eq_some_iff, Value.list.injEq]
  | _ => simp [asHashes?]

end Value

namespace TakeType

/-- **A view sees exactly what a value holds.** -/
theorem view_eq_some_iff {t : TakeType} {v : Value} {a : t.Carrier} :
    t.view v = some a ↔ v = t.value a := by
  cases t with
  | block n => exact Value.asBlock?_eq_some_iff
  | hashes => exact Value.asHashes?_eq_some_iff
  | _ =>
    constructor
    · intro h
      cases v <;> cases h
      rfl
    · rintro rfl
      rfl

theorem view_eq_none_iff {t : TakeType} {v : Value} :
    t.view v = none ↔ ∀ a, v ≠ t.value a := by
  rw [Option.eq_none_iff_forall_ne_some]
  exact forall_congr' fun a => not_congr view_eq_some_iff

end TakeType

/-! ## §2. One take. -/

namespace Take

variable {α : Type}

/-- What a take leaves, whether it succeeds or fails. -/
def left (take : Take α) (state : DecodedFields) : DecodedFields :=
  match take.run state with
  | .ok _ state => state
  | .error _ state => state

variable {view : Value → Option α} {fields : List Field}

/-- A value of another type is refused and used up. -/
theorem run_as_of_none {value : Value} (hview : view value = none) (rest : List Value)
    {index : Nat} {field : Field} (hfield : fields[index]? = some field) :
    (as view).run ⟨fields, value :: rest, index⟩
      = .error (.valueMismatch field.name field.kind) ⟨fields, rest, index + 1⟩ := by
  have hget : ∀ state, (get : Take DecodedFields) state = .ok state state := fun _ => rfl
  have hset : ∀ state state', (set state' : Take PUnit) state = .ok ⟨⟩ state' := fun _ _ => rfl
  have hthrow : ∀ (e : Error) state, (throw e : Take α) state = .error e state := fun _ _ => rfl
  simp [as, next, EStateM.run, bind, EStateM.bind, hget, hset, hthrow, pure, EStateM.pure, hfield,
    hview]

/-- Behind the last field nothing is taken and nothing moves. -/
theorem run_as_past {values : List Value} {index : Nat} (h : fields.length ≤ index) :
    (as view).run ⟨fields, values, index⟩
      = .error (.fieldCount fields.length (index + 1)) ⟨fields, values, index⟩ := by
  have hfield : fields[index]? = none := List.getElem?_eq_none h
  have hget : ∀ state, (get : Take DecodedFields) state = .ok state state := fun _ => rfl
  have hthrow : ∀ (e : Error) state, (throw e : Take (Field × Value)) state = .error e state :=
    fun _ _ => rfl
  simp [as, next, EStateM.run, bind, EStateM.bind, hget, hthrow, hfield]

end Take

/-- The answer that a take of a type has to give for field number `i`. -/
inductive TakeType.Answers (fields : List Field) (values : List Value) (i : Nat) (t : TakeType) :
    Except Error t.Carrier → Prop
  /-- What the value holds, if it is of the type. -/
  | taken {a : t.Carrier} (hi : i < fields.length) (hvalue : values[i]? = some (t.value a)) :
    Answers fields values i t (.ok a)
  /-- The field with its kind, if the value is of another type. -/
  | refused {field : Field} {value : Value} (hfield : fields[i]? = some field)
    (hvalue : values[i]? = some value) (h : ∀ a, value ≠ t.value a) :
    Answers fields values i t (.error (.valueMismatch field.name field.kind))
  /-- That there are no more fields; how many takes came too late is not
  told. -/
  | past (h : fields.length ≤ i) :
    Answers fields values i t (.error (.fieldCount fields.length (fields.length + 1)))

namespace TakeType

variable {fields : List Field} {values : List Value} {i : Nat} {t : TakeType}

/-- There is one answer to give. -/
theorem Answers.unique {answer answer' : Except Error t.Carrier}
    (h : t.Answers fields values i answer) (h' : t.Answers fields values i answer') :
    answer = answer' := by
  cases h with
  | @taken a hi hvalue =>
    cases h' with
    | taken _ hvalue' =>
      have hsame : t.value a = _ := Option.some.inj (hvalue.symm.trans hvalue')
      have hview := view_eq_some_iff.2 hsame
      rw [view_eq_some_iff.2 rfl] at hview
      rw [Option.some.inj hview]
    | refused _ hvalue' hnone =>
      exact absurd (Option.some.inj (hvalue'.symm.trans hvalue)) (hnone a)
    | past hle => exact absurd hi (Nat.not_lt_of_le hle)
  | refused hfield hvalue hnone =>
    cases h' with
    | taken _ hvalue' => exact absurd (Option.some.inj (hvalue.symm.trans hvalue')) (hnone _)
    | refused hfield' _ _ => rw [Option.some.inj (hfield.symm.trans hfield')]
    | past hle => rw [List.getElem?_eq_none hle] at hfield; cases hfield
  | past hle =>
    cases h' with
    | taken hi _ => exact absurd hi (Nat.not_lt_of_le hle)
    | refused hfield' _ _ => rw [List.getElem?_eq_none hle] at hfield'; cases hfield'
    | past _ => rfl

end TakeType

/-! ## §3. Rows of takes. -/

namespace DecodedFields

/-- Fields with the first `i` of their values taken, or all of them if there
are no more. -/
def behind (fields : List Field) (values : List Value) (i : Nat) : DecodedFields :=
  ⟨fields, values.drop i, min i fields.length⟩

/-- What takes in a row leave. -/
def after (state : DecodedFields) (types : List TakeType) : DecodedFields :=
  types.foldl (fun state t => t.take.left state) state

/-- What takes in a row answer. -/
def answers (state : DecodedFields) : List TakeType → List ((t : TakeType) × Except Error t.Carrier)
  | [] => []
  | t :: types => ⟨t, t.take.build state⟩ :: (t.take.left state).answers types

variable {fields : List Field} {values : List Value}

/-- **One take gives the answer of its field and goes one field on.** -/
theorem take_behind (hlength : values.length = fields.length) (i : Nat) (t : TakeType) :
    t.Answers fields values i (t.take.build (behind fields values i)) ∧
      t.take.left (behind fields values i) = behind fields values (i + 1) := by
  unfold Take.build Take.left behind
  rw [t.take_eq_as]
  by_cases hi : i < fields.length
  · have hdrop : values.drop i = values[i] :: values.drop (i + 1) := List.drop_eq_getElem_cons _
    rw [hdrop, Nat.min_eq_left (Nat.le_of_lt hi), Nat.min_eq_left hi]
    have hvalue : values[i]? = some values[i] := List.getElem?_eq_getElem _
    cases hview : t.view values[i] with
    | some a =>
      rw [Take.run_as hview _ hi]
      rw [TakeType.view_eq_some_iff.1 hview] at hvalue
      exact ⟨.taken hi hvalue, rfl⟩
    | none =>
      have hfield : fields[i]? = some fields[i] := List.getElem?_eq_getElem hi
      rw [Take.run_as_of_none hview _ hfield]
      exact ⟨.refused hfield hvalue (TakeType.view_eq_none_iff.1 hview), rfl⟩
  · have hle : fields.length ≤ i := Nat.le_of_not_lt hi
    have hdrop : ∀ j, fields.length ≤ j → values.drop j = [] :=
      fun j hj => List.drop_eq_nil_of_le (hlength ▸ hj)
    rw [hdrop i hle, hdrop (i + 1) (by omega), Nat.min_eq_right hle, Nat.min_eq_right (by omega),
      Take.run_as_past (Nat.le_refl _)]
    exact ⟨.past hle, rfl⟩

/-- **What is left behind a row is settled by how many takes there were.** -/
theorem after_eq (hlength : values.length = fields.length) (types : List TakeType) :
    ∀ i, (behind fields values i).after types = behind fields values (i + types.length) := by
  induction types with
  | nil =>
    intro i
    rfl
  | cons t types ih =>
    intro i
    show (t.take.left (behind fields values i)).after types = _
    rw [(take_behind hlength i t).2, ih, List.length_cons, Nat.add_assoc, Nat.add_comm 1]

/-- **Each answer of a row is the answer of its own field.** -/
theorem answers_iff (hlength : values.length = fields.length) (types : List TakeType) :
    ∀ (i j : Nat) (t : TakeType) (answer : Except Error t.Carrier),
      ((behind fields values i).answers types)[j]? = some ⟨t, answer⟩ ↔
        types[j]? = some t ∧ t.Answers fields values (i + j) answer := by
  -- one take at a time; where the row begins is quantified over
  induction types with
  | nil =>
    intro i j t answer
    simp [answers]
  | cons t types ih =>
    intro i j t' answer
    obtain ⟨hanswer, hleft⟩ := take_behind hlength i t
    unfold answers
    cases j with
    | zero =>
      rw [List.getElem?_cons_zero, List.getElem?_cons_zero, Option.some.injEq, Option.some.injEq]
      constructor
      · intro h
        cases h
        exact ⟨rfl, hanswer⟩
      · rintro ⟨rfl, h⟩
        rw [hanswer.unique h]
    | succ j =>
      rw [List.getElem?_cons_succ, List.getElem?_cons_succ, hleft, ih, Nat.add_assoc,
        Nat.add_comm 1]

/-- Every take is answered. -/
theorem length_answers (types : List TakeType) :
    ∀ state : DecodedFields, (state.answers types).length = types.length := by
  induction types with
  | nil =>
    intro state
    rfl
  | cons t types ih =>
    intro state
    show ((t.take.left state).answers types).length + 1 = _
    rw [ih, List.length_cons]

end DecodedFields

namespace Layout

variable {layout : Layout} {data : List UInt8} {values : List Value}

/-- What was decoded is there to be taken, from the first field on. -/
theorem decodeFields_of_decode (h : layout.decode data = .ok values) :
    layout.decodeFields data = .ok (.behind layout.fields values 0) ∧
      layout.Fits values ∧ values.length = layout.fields.length := by
  obtain ⟨⟨_, c⟩, hread, rfl⟩ := Except.map_eq_ok_iff.1 h
  obtain ⟨hfits, -⟩ := layout.passed_of_read hread
  refine ⟨?_, hfits, hfits.length_eq.symm⟩
  unfold decodeFields Reader.run readFields
  rw [Reader.bind_ok hread]
  exact congrArg Except.ok (by rw [DecodedFields.behind, List.drop_zero, Nat.zero_min])

/-- **Typed takes are positional.**  In every row of takes over decoded fields,
the answer number `i` is the one for the type asked for, field number `i` and
its value, whatever was taken before and whether or not it succeeded; behind
the last field the answer is always the same.  A field that is still to be
taken always has its value. -/
theorem answers_positional (h : layout.decode data = .ok values) :
    values.length = layout.fields.length ∧
    ∃ state, layout.decodeFields data = .ok state ∧ ∀ types : List TakeType,
      (state.answers types).length = types.length ∧
      (∀ (i : Nat) (t : TakeType) (answer : Except Error t.Carrier),
        (state.answers types)[i]? = some ⟨t, answer⟩ ↔
          types[i]? = some t ∧ t.Answers layout.fields values i answer) ∧
      ((state.after types).index < layout.fields.length → (state.after types).values ≠ []) := by
  obtain ⟨hstate, -, hlength⟩ := decodeFields_of_decode h
  refine ⟨hlength, _, hstate, fun types => ⟨DecodedFields.length_answers types _, ?_, ?_⟩⟩
  · intro i t answer
    rw [DecodedFields.answers_iff hlength types 0, Nat.zero_add]
  · rw [DecodedFields.after_eq hlength]
    intro hindex
    -- as many values are gone as fields
    have hlt : min (0 + types.length) layout.fields.length < layout.fields.length := hindex
    refine List.ne_nil_of_length_pos ?_
    show 0 < (values.drop (0 + types.length)).length
    rw [List.length_drop]
    omega

/-- A truth value asked for as a byte is refused and the number behind it is
given all the same; two takes behind the last field are told the same. -/
theorem answers_positional_flag :
    decode ⟨[⟨"flag", .bool⟩, ⟨"amount", .u64⟩]⟩ [7, 5, 0, 0, 0, 0, 0, 0, 0]
      = .ok [.bool true, .u64 5] ∧
    ∃ state, decodeFields ⟨[⟨"flag", .bool⟩, ⟨"amount", .u64⟩]⟩ [7, 5, 0, 0, 0, 0, 0, 0, 0]
        = .ok state ∧
      (state.answers [.u8, .u64, .hashes, .u8])[0]?
        = some ⟨.u8, .error (.valueMismatch "flag" .bool)⟩ ∧
      (state.answers [.u8, .u64, .hashes, .u8])[1]? = some ⟨.u64, .ok (5 : UInt64)⟩ ∧
      (state.answers [.u8, .u64, .hashes, .u8])[2]? = some ⟨.hashes, .error (.fieldCount 2 3)⟩ ∧
      (state.answers [.u8, .u64, .hashes, .u8])[3]? = some ⟨.u8, .error (.fieldCount 2 3)⟩ := by
  have hdecode : decode ⟨[⟨"flag", .bool⟩, ⟨"amount", .u64⟩]⟩ [7, 5, 0, 0, 0, 0, 0, 0, 0]
      = .ok [.bool true, .u64 5] := rfl
  obtain ⟨-, state, hstate, hanswers⟩ := answers_positional hdecode
  obtain ⟨-, hanswer, -⟩ := hanswers [.u8, .u64, .hashes, .u8]
  refine ⟨hdecode, state, hstate, (hanswer 0 .u8 _).2 ⟨rfl, ?_⟩, (hanswer 1 .u64 _).2 ⟨rfl, ?_⟩,
    (hanswer 2 .hashes _).2 ⟨rfl, ?_⟩, (hanswer 3 .u8 _).2 ⟨rfl, ?_⟩⟩
  · exact @TakeType.Answers.refused _ _ 0 .u8 ⟨"flag", .bool⟩ (.bool true) rfl rfl
      fun a ha => by cases ha
  · exact .taken (by decide) rfl
  · exact .past (by decide)
  · exact .past (by decide)

end Layout

end MerkleAirdrop
