/-
  MerkleAirdrop.Proofs.CommandLine.Written
  ────────────────────────────────────────
  **EVERY VALUE CAN BE WRITTEN ON A COMMAND LINE.**

      Setting.hashes     any hashes, in one text with commas between them
      Line.of_settings   any settings of a command's flags make a command line
-/
import MerkleAirdrop.Proofs.Base58
import MerkleAirdrop.Proofs.CommandLine.Line
import MerkleAirdrop.Proofs.Numeral

namespace MerkleAirdrop.CommandLine

/-! ## §1. Values and their texts. -/

namespace ValueKind

theorem read_address (x : Address) : address.read (Address.text x) = .ok (.address x) := by
  show ((Address.parse (Address.text x)).mapError Address.errorMessage).map FlagValue.address = _
  rw [Address.parse_text]
  rfl

theorem read_hash (x : Hash) : hash.read (Address.text x) = .ok (.hash x) := by
  show ((Address.parse (Address.text x)).mapError Hash.errorMessage).map FlagValue.hash = _
  rw [Address.parse_text]
  rfl

theorem read_u64 (n : UInt64) : u64.read (Numeral.writeU64 n) = .ok (.u64 n) := by
  show ((Numeral.readU64 (Numeral.writeU64 n)).mapError NumeralError.message).map FlagValue.u64 = _
  rw [Numeral.readU64_writeU64]
  rfl

end ValueKind

namespace Setting

/-- A flag for one value, and a text of its kind. -/
def single (name : String) {kind : ValueKind} {text : String} {value : FlagValue}
    (h : kind.read text = .ok value) : Setting where
  flag := .single name kind
  text := text
  values := [value]
  read_eq := by
    unfold Flag.read Flag.pieces
    rw [Flag.single, if_neg Bool.false_ne_true, List.mapM_cons, List.mapM_nil, h]
    rfl

/-- A flag for a text. -/
def ofText (name text : String) : Setting :=
  single name (show ValueKind.text.read text = .ok (.text text) from rfl)

end Setting

/-! ## §2. A flag for many values. -/

theorem Flag.splitAt_eq (mark : Char) (cs : List Char) :
    Flag.splitAt mark cs = cs.splitOn mark := by
  induction cs with
  | nil => rfl
  | cons c cs ih =>
      unfold Flag.splitAt
      rw [ih, List.splitOn_eq_splitOnP, List.splitOn_eq_splitOnP,
        List.splitOnP_cons_eq_if_modifyHead]
      cases hcs : cs.splitOnP (· == mark) with
      | nil => exact absurd hcs (List.splitOnP_ne_nil _ _)
      | cons piece pieces => simp

/-- Texts without commas are the pieces of what they make with commas between
them. -/
theorem Flag.pieces_intercalate {flag : Flag} (hmany : flag.many = true) {texts : List String}
    (hne : texts ≠ []) (h : ∀ text ∈ texts, ',' ∉ text.toList) :
    flag.pieces (",".intercalate texts) = texts := by
  have hsplit : (List.intercalate [','] (texts.map String.toList)).splitOn ','
      = texts.map String.toList :=
    List.splitOn_intercalate ',' (List.forall_mem_map.2 h) (by simpa using hne)
  unfold pieces
  rw [if_pos hmany, String.toList_intercalate, splitAt_eq]
  show List.map String.ofList ((List.intercalate [','] (texts.map String.toList)).splitOn ',') = _
  rw [hsplit, List.map_map]
  simp

/-- The text of a hash has no commas. -/
theorem comma_notMem_text (x : Hash) : ',' ∉ (Address.text x).toList := by
  intro h
  exact absurd (Base58.mem_alphabet_of_mem_encode x.toList ',' h) (by decide)

/-- Hashes with commas between them, for a flag that takes many. -/
def Setting.hashes (name : String) (xs : List Hash) (hne : xs ≠ []) : Setting where
  flag := ⟨name, .hash, true⟩
  text := ",".intercalate (xs.map Address.text)
  values := xs.map .hash
  read_eq := by
    have hread : ∀ x : Hash,
        (ValueKind.hash.read (Address.text x)).mapError UsageError.invalidValue
          = pure (.hash x) := fun x => congrArg _ (ValueKind.read_hash x)
    unfold Flag.read
    rw [Flag.pieces_intercalate rfl (by simpa using hne)
      (List.forall_mem_map.2 fun x _ => comma_notMem_text x), List.mapM_map, Function.comp_def]
    simp only [hread]
    exact List.mapM_pure

namespace Setting

end Setting

/-! ## §3. Command lines. -/

namespace Level

/-- Nothing is filled from an environment that holds nothing. -/
theorem gives_of_writes {level : Level} {words : List String} {settings : List Setting}
    {a : Assignment} (h : level.Writes words settings)
    (ha : ∀ name, (Setting.allGiven settings).values name = a.values name) :
    level.Gives [] words a := by
  refine ⟨settings, [], h, ?_, fun name => ?_⟩
  · refine (List.filterMap_eq_nil_iff.2 fun flag _ => ?_).symm
    exact ite_self none
  · rw [List.append_nil, ha]

/-- The words that write settings with equals signs. -/
def attachedWords (settings : List Setting) : List String :=
  settings.map fun s => "--" ++ s.flag.name ++ "=" ++ s.text

theorem writes_attached {level : Level} (settings : List Setting)
    (h : ∀ s ∈ settings, level.flags.find? (·.name == s.flag.name) = some s.flag) :
    level.Writes (attachedWords settings) settings := by
  induction settings with
  | nil => exact .nil
  | cons s settings ih =>
      rw [List.forall_mem_cons] at h
      exact .attached s h.1 (ih h.2)

end Level

theorem Level.gives_attached {level : Level} {settings : List Setting} {a : Assignment}
    (h : ∀ s ∈ settings, level.flags.find? (·.name == s.flag.name) = some s.flag)
    (ha : ∀ name, (Setting.allGiven settings).values name = a.values name) :
    level.Gives [] (attachedWords settings) a :=
  gives_of_writes (writes_attached settings h) ha

/-- Settings for what stands before a command. -/
def Invocation.globalSettings (url? : Option String) (program? : Option Address) :
    List Setting :=
  url?.toList.map (.ofText "rpc-url") ++
    program?.toList.map fun program => .single "program-id" (ValueKind.read_address program)

/-- **Settings of a command's flags make a command line.** -/
theorem Line.of_settings (url? : Option String) (program? : Option Address) {name : String}
    {s : Subcommand} (hs : subcommands.find? (·.name == name) = some s) (settings : List Setting)
    {a : Assignment} (ha : Setting.allGiven settings = a)
    (h : ∀ x ∈ settings, s.flags.find? (·.name == x.flag.name) = some x.flag) :
    Line [] url? program? name a
      (Level.attachedWords (Invocation.globalSettings url? program?) ++
        name :: Level.attachedWords settings) := by
  refine .mk hs (Level.gives_attached ?_ ?_) (Level.gives_attached h fun _ => ha ▸ rfl)
  · cases url? <;> cases program? <;>
      simp [Invocation.globalSettings, Invocation.topLevel, Setting.ofText, Setting.single,
        Flag.single]
  · intro name
    cases url? <;> cases program? <;> rfl

end MerkleAirdrop.CommandLine
