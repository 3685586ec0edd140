/-
  MerkleAirdrop.Proofs.Instruction.Dispatch
  ─────────────────────────────────────────
  **A CALL IS DECODED AS THE ARGUMENTS OF THE INSTRUCTION ITS TAG NAMES.**

      Call.decode_agrees   the one decoder of calls and the six decoders of
                           arguments give the same results and errors

  The six tags are different (`InstructionType.tag_injective`), so a buffer
  carries the tag of at most one instruction, and the decoder of calls comes
  to what that instruction's own decoder comes to (`Call.decode_eq_map`).
-/
import MerkleAirdrop.Instruction.Call
import MerkleAirdrop.Proofs.Record.Outcome

namespace MerkleAirdrop

/-! ## §1. One type for the six instructions. -/

/-- The six instructions. -/
inductive InstructionType where
  | newDistributor
  | newClaim
  | claimLocked
  | clawback
  | setAdmin
  | withdrawCustodySol
  deriving DecidableEq, Repr

namespace InstructionType

/-- The record that an instruction's arguments are. -/
def record : InstructionType → RecordType
  | newDistributor => .newDistributor
  | newClaim => .newClaim
  | claimLocked => .claimLocked
  | clawback => .clawback
  | setAdmin => .setAdmin
  | withdrawCustodySol => .withdrawCustodySol

/-- The arguments of an instruction. -/
abbrev Args (t : InstructionType) : Type := t.record.Carrier

/-- The tag of an instruction. -/
abbrev tag (t : InstructionType) : Discriminator := t.record.tag

/-- The instruction with these arguments. -/
def call : (t : InstructionType) → t.Args → Call
  | newDistributor, args => .newDistributor args
  | newClaim, args => .newClaim args
  | claimLocked, args => .claimLocked args
  | clawback, args => .clawback args
  | setAdmin, args => .setAdmin args
  | withdrawCustodySol, args => .withdrawCustodySol args

/-- The buffer is refused as arguments of an instruction for its tag. -/
def Mismatch (t : InstructionType) (d : List UInt8) : Prop :=
  ∃ record expected found,
    (Record.decode d : Except Error t.Args) = .error (.wrongDiscriminator record expected found)

theorem tag_injective {t t' : InstructionType} (h : t.tag = t'.tag) : t = t' := by
  cases t <;> cases t' <;> first | rfl | exact absurd h (by decide)

/-- A buffer carries at most one of the six tags. -/
theorem eq_of_tag_prefix {t t' : InstructionType} {d : List UInt8} (h : t.tag.toList <+: d)
    (h' : t'.tag.toList <+: d) : t = t' := by
  refine tag_injective (Block.ext ?_)
  have hlength : t.tag.toList.length = t'.tag.toList.length := by
    rw [t.tag.length_toList, t'.tag.length_toList]
  exact (List.prefix_of_prefix_length_le h h' (Nat.le_of_eq hlength)).eq_of_length hlength

end InstructionType

/-! ## §2. What a call is made of. -/

namespace Call

/-- The instruction that is called. -/
def type : Call → InstructionType
  | newDistributor _ => .newDistributor
  | newClaim _ => .newClaim
  | claimLocked _ => .claimLocked
  | clawback _ => .clawback
  | setAdmin _ => .setAdmin
  | withdrawCustodySol _ => .withdrawCustodySol

theorem type_call (t : InstructionType) (args : t.Args) : (t.call args).type = t := by
  cases t <;> rfl

theorem call_injective (t : InstructionType) {args args' : t.Args}
    (h : t.call args = t.call args') : args = args' := by
  cases t <;> (injection h)

theorem name_call (t : InstructionType) (args : t.Args) :
    (t.call args).name = Record.name t.Args := by
  cases t <;> rfl

/-- The label of an instruction is its name in capitals. -/
theorem snakeCase_label (call : Call) : snakeCase call.label = call.name := by
  cases call <;> (dsimp only [label, name]; decide)

theorem toJson_call (t : InstructionType) (args : t.Args) :
    (t.call args).toJson
      = .object [("instruction", .text (Record.name t.Args)), ("args", Schema.toJson args)] := by
  rw [toJson, snakeCase_label, name_call]
  cases t <;> rfl

/-! ## §3. Decoding a call. -/

theorem decode_short {d : List UInt8} (h : d.length < tagWidth) :
    decode d = .error (.malformedInput tagWidth d.length) := by
  unfold decode
  rw [splitTag_short h]
  rfl

/-- With the tag of an instruction in front, a call is decoded as the
arguments of that instruction are. -/
theorem decode_eq_map (t : InstructionType) {d : List UInt8} (h : t.tag.toList <+: d) :
    decode d = t.call <$> Record.decode d := by
  obtain ⟨body, rfl⟩ := h
  -- The arguments' own decoder checks the tag once more, and it is right.
  have hdecode : (Record.decode (t.tag.toList ++ body) : Except Error t.Args)
      = Record.decodeFields ⟨tagWidth, body⟩ := Record.decode_tag body
  rw [hdecode]
  unfold decode
  rw [splitTag_append]
  cases t <;> rfl

/-- A tag that is none of the six is unknown, whatever stands behind it. -/
theorem decode_unknown {found : Discriminator} (h : ∀ t : InstructionType, found ≠ t.tag)
    (body : List UInt8) : decode (found.toList ++ body) = .error (.unknownInstruction found) := by
  unfold decode
  rw [splitTag_append]
  -- the tags are compared one after the other, and each comparison fails
  exact (if_neg (h .newDistributor)).trans <| (if_neg (h .newClaim)).trans <|
    (if_neg (h .claimLocked)).trans <| (if_neg (h .clawback)).trans <|
    (if_neg (h .setAdmin)).trans (if_neg (h .withdrawCustodySol))

end Call

namespace InstructionType

/-! ## §4. What the tag decides. -/

/-- A buffer is too short for a tag, carries the tag of one instruction, or
carries a tag that is none of the six. -/
theorem tag_cases (d : List UInt8) :
    d.length < tagWidth ∨ (∃ t : InstructionType, t.tag.toList <+: d) ∨
      ∃ found : Discriminator, found.toList <+: d ∧ ∀ t : InstructionType, found ≠ t.tag := by
  rcases Nat.lt_or_ge d.length tagWidth with hshort | hlong
  · exact .inl hshort
  · obtain ⟨found, body, rfl⟩ := exists_tag hlong
    by_cases h : ∃ t : InstructionType, t.tag = found
    · obtain ⟨t, rfl⟩ := h
      exact .inr (.inl ⟨t, List.prefix_append _ body⟩)
    · exact .inr (.inr ⟨found, List.prefix_append _ body, fun t ht => h ⟨t, ht.symm⟩⟩)

/-- Arguments are refused for their tag exactly when the buffer carries
another. -/
theorem mismatch_iff (t : InstructionType) {d : List UInt8} (hlong : tagWidth ≤ d.length) :
    t.Mismatch d ↔ ¬ t.tag.toList <+: d := by
  constructor
  · rintro ⟨_, _, _, hmismatch⟩ htag
    -- with the right tag, a buffer can only be too short
    obtain ⟨_, _, hmalformed⟩ := t.record.find?_of_decode_error htag hmismatch
    cases hmalformed
  · intro h
    obtain ⟨found, body, rfl⟩ := exists_tag hlong
    have hfound : found ≠ t.tag := by
      rintro rfl
      exact h (List.prefix_append _ body)
    exact ⟨_, _, _, Record.decode_wrongTag hfound body⟩

end InstructionType

namespace Call

open InstructionType (tag_cases mismatch_iff eq_of_tag_prefix)

/-! ## §5. The two decoders. -/

/-- A call is decoded exactly when its arguments are. -/
theorem decode_eq_ok_iff (t : InstructionType) (args : t.Args) (d : List UInt8) :
    decode d = .ok (t.call args) ↔ Record.decode d = .ok args := by
  constructor
  · intro h
    rcases tag_cases d with hshort | ⟨t', htag⟩ | ⟨found, ⟨body, rfl⟩, hunknown⟩
    · rw [decode_short hshort] at h
      cases h
    · rw [decode_eq_map t' htag] at h
      cases hargs : (Record.decode d : Except Error t'.Args) with
      | error e =>
        rw [hargs] at h
        cases h
      | ok args' =>
        rw [hargs] at h
        injection h with h
        -- the call says which instruction it is, so the tag was that of `t`
        have htype : t' = t := by rw [← type_call t' args', h, type_call]
        subst htype
        rw [hargs, call_injective t' h]
    · rw [decode_unknown hunknown] at h
      cases h
  · intro h
    obtain ⟨body, hbody⟩ := Record.exists_body_of_decode h
    rw [decode_eq_map t ⟨body, hbody.symm⟩, h]
    rfl

/-- A call is unknown exactly when all six decoders refuse the tag. -/
theorem decode_eq_unknown_iff (d : List UInt8) (found : Discriminator) :
    decode d = .error (.unknownInstruction found) ↔
      tagWidth ≤ d.length ∧ found.toList = d.take tagWidth ∧
        ∀ t : InstructionType, t.Mismatch d := by
  constructor
  · intro h
    rcases tag_cases d with hshort | ⟨t, htag⟩ | ⟨found', ⟨body, rfl⟩, hunknown⟩
    · rw [decode_short hshort] at h
      cases h
    · -- no decoder of arguments ever reports an unknown instruction
      rw [decode_eq_map t htag] at h
      cases hargs : (Record.decode d : Except Error t.Args) with
      | ok args =>
        rw [hargs] at h
        cases h
      | error e =>
        obtain ⟨_, _, rfl⟩ := t.record.find?_of_decode_error htag hargs
        rw [hargs] at h
        cases h
    · rw [decode_unknown hunknown] at h
      injection h with h
      injection h with h
      subst h
      refine ⟨RecordType.tagWidth_le_length found' body,
        (List.take_left' found'.length_toList).symm, fun t => ?_⟩
      exact ⟨_, _, _, Record.decode_wrongTag (hunknown t) body⟩
  · rintro ⟨hlong, hfound, hmismatch⟩
    rcases tag_cases d with hshort | ⟨t, htag⟩ | ⟨found', ⟨body, rfl⟩, hunknown⟩
    · omega
    · exact absurd htag ((mismatch_iff t hlong).1 (hmismatch t))
    · have hsame : found.toList = found'.toList :=
        hfound.trans (List.take_left' found'.length_toList)
      rw [Block.ext hsame, decode_unknown hunknown]

/-- **Calls and arguments are decoded alike.**  A call is decoded to an
instruction exactly when the buffer is decoded to its arguments, and then
both its name and its tag in JSON are the instruction's; it is unknown
exactly when every decoder of arguments refuses the tag; else it fails as the
decoder of the one instruction does whose tag the buffer carries, or as all
six do if it is too short for a tag. -/
theorem decode_agrees (d : List UInt8) :
    (∀ (t : InstructionType) (args : t.Args),
      (decode d = .ok (t.call args) ↔ Record.decode d = .ok args) ∧
      (t.call args).name = Record.name t.Args ∧
      (t.call args).toJson = .object
        [("instruction", .text (Record.name t.Args)), ("args", Schema.toJson args)]) ∧
    (∀ found : Discriminator, decode d = .error (.unknownInstruction found) ↔
      tagWidth ≤ d.length ∧ found.toList = d.take tagWidth ∧
        ∀ t : InstructionType, t.Mismatch d) ∧
    (∀ err, decode d = .error err → (∀ found, err ≠ .unknownInstruction found) →
      (d.length < tagWidth ∧ err = .malformedInput tagWidth d.length ∧
        ∀ t : InstructionType, (Record.decode d : Except Error t.Args) = .error err) ∨
      ∃ t : InstructionType, t.tag.toList <+: d ∧
        (∀ t' : InstructionType, t'.tag.toList <+: d → t' = t) ∧
        (Record.decode d : Except Error t.Args) = .error err) ∧
    (tagWidth ≤ d.length →
      ∀ t t' : InstructionType, ¬ t.Mismatch d → ¬ t'.Mismatch d → t = t') := by
  refine ⟨fun t args => ⟨decode_eq_ok_iff t args d, name_call t args, toJson_call t args⟩,
    decode_eq_unknown_iff d, ?_, ?_⟩
  · intro err herr hknown
    rcases tag_cases d with hshort | ⟨t, htag⟩ | ⟨found, ⟨body, rfl⟩, hunknown⟩
    · rw [decode_short hshort] at herr
      injection herr with herr
      exact .inl ⟨hshort, herr.symm, fun t => herr ▸ Record.decode_short hshort⟩
    · rw [decode_eq_map t htag] at herr
      cases hargs : (Record.decode d : Except Error t.Args) with
      | ok args =>
        rw [hargs] at herr
        cases herr
      | error e =>
        rw [hargs] at herr
        injection herr with herr
        exact .inr ⟨t, htag, fun t' htag' => eq_of_tag_prefix htag' htag, herr ▸ hargs⟩
    · rw [decode_unknown hunknown] at herr
      injection herr with herr
      exact absurd herr.symm (hknown found)
  · intro hlong t t' h h'
    rw [mismatch_iff t hlong, not_not] at h
    rw [mismatch_iff t' hlong, not_not] at h'
    exact eq_of_tag_prefix h h'

end Call

end MerkleAirdrop
