/-
  MerkleAirdrop.Proofs.CommandLine.Scan
  ─────────────────────────────────────
  **A LEVEL GIVES ITS FLAGS WHAT IS WRITTEN FOR THEM.**

      Level.scan_written   words that write settings of flags give the flags
                           their values, and the run goes on behind them

  A flag's value may stand behind an equals sign or apart.  A value that
  stands apart is not read before the next flag turns up.  So what is carried
  through the run is not what has been given but what will have been given
  once the last flag is settled.
-/
import MerkleAirdrop.CommandLine.Command
import MerkleAirdrop.Proofs.Except

namespace MerkleAirdrop.CommandLine

/-! ## §1. What arguments look like. -/

namespace Token

theorem ofArgument_dashes {word : String} {cs : List Char} (hcs : cs ≠ [])
    (h : word.toList = '-' :: '-' :: cs) :
    ofArgument word = .long (String.ofList (cs.takeWhile (· != '=')))
      (match cs.dropWhile (· != '=') with
        | _ :: value => some (String.ofList value)
        | [] => none) := by
  unfold ofArgument
  rw [h]
  cases cs with
  | nil => exact absurd rfl hcs
  | cons c cs => rfl

/-- A text that does not begin with a dash does not look like a flag. -/
theorem ofArgument_plain {word : String} (h : word.toList.head? ≠ some '-') :
    ofArgument word = .plain := by
  unfold ofArgument
  split
  next hword => exact absurd (congrArg List.head? hword) h
  next hword => exact absurd (congrArg List.head? hword) h
  next hword => exact absurd (congrArg List.head? hword) h
  next => rfl

variable {name : String} (hname : '=' ∉ name.toList)

include hname

theorem ne_equals : ∀ c ∈ name.toList, (c != '=') = true := by
  intro c hc
  exact bne_iff_ne.2 fun h => hname (h ▸ hc)

theorem ofArgument_attached (value : String) :
    ofArgument ("--" ++ name ++ "=" ++ value) = .long name (some value) := by
  have h : ("--" ++ name ++ "=" ++ value).toList
      = '-' :: '-' :: (name.toList ++ '=' :: value.toList) := by simp
  rw [ofArgument_dashes (by simp) h, List.takeWhile_append_of_pos (ne_equals hname),
    List.dropWhile_append_of_pos (ne_equals hname)]
  simp

theorem ofArgument_name (hempty : name ≠ "") : ofArgument ("--" ++ name) = .long name none := by
  have h : ("--" ++ name).toList = '-' :: '-' :: (name.toList ++ []) := by simp
  rw [ofArgument_dashes (by simpa using hempty) h,
    List.takeWhile_append_of_pos (ne_equals hname), List.dropWhile_append_of_pos (ne_equals hname)]
  simp

end Token

/-! ## §2. Settings. -/

namespace Assignment

@[simp] theorem values_nil (name : String) : values [] name = [] := rfl

@[simp] theorem values_cons (given name : String) (value : FlagValue) (a : Assignment) :
    values ((given, value) :: a) name
      = if given = name then value :: values a name else values a name := by
  by_cases h : given = name <;> simp [values, h]

@[simp] theorem values_append (a b : Assignment) (name : String) :
    values (a ++ b) name = values a name ++ values b name := by
  simp [values]

/-- The values of one flag are the values of no other. -/
@[simp] theorem values_map {α : Type} (given name : String) (value : α → FlagValue)
    (xs : List α) :
    values (xs.map fun x => (given, value x)) name
      = if given = name then xs.map value else [] := by
  induction xs with
  | nil => simp
  | cons x xs ih =>
      rw [List.map_cons, values_cons, ih]
      by_cases h : given = name <;> simp [h]

theorem isGiven_eq_false_iff {a : Assignment} {flag : Flag} :
    isGiven a flag = false ↔ a.values flag.name = [] := by
  simp [values, isGiven]

theorem isGiven_append (a b : Assignment) (flag : Flag) :
    isGiven (a ++ b) flag = (isGiven a flag || isGiven b flag) :=
  List.any_append

end Assignment

/-- A flag with a text for it that can be read. -/
structure Setting where
  flag : Flag
  text : String
  values : List FlagValue
  read_eq : flag.read text = .ok values

namespace Setting

/-- What a setting gives. -/
def given (s : Setting) : Assignment := s.values.map (s.flag.name, ·)

/-- What settings in a row give. -/
def allGiven (settings : List Setting) : Assignment := settings.flatMap given

theorem allGiven_cons (s : Setting) (settings : List Setting) :
    allGiven (s :: settings) = s.given ++ allGiven settings := rfl

theorem allGiven_append (settings settings' : List Setting) :
    allGiven (settings ++ settings') = allGiven settings ++ allGiven settings' :=
  List.flatMap_append

theorem values_given (s : Setting) (name : String) :
    s.given.values name = if s.flag.name = name then s.values else [] := by
  have h := Assignment.values_map s.flag.name name id s.values
  rwa [List.map_id] at h

/-- A flag for one value is read as one. -/
theorem length_values {s : Setting} (h : s.flag.many = false) : s.values.length = 1 := by
  have hread := s.read_eq
  unfold Flag.read Flag.pieces at hread
  rw [h, if_neg Bool.false_ne_true, List.mapM_cons, List.mapM_nil] at hread
  obtain ⟨value, -, hvalues⟩ := Except.bind_eq_ok_iff.1 hread
  rw [← Except.ok.inj hvalues]
  rfl

/-- Giving a flag its text gives it its values, unless it is given twice. -/
theorem give_eq (s : Setting) {a : Assignment}
    (h : s.flag.many = false → a.values s.flag.name = []) :
    a.give s.flag s.text = .ok (a ++ s.given) := by
  have hfresh : ¬ (a.isGiven s.flag && !s.flag.many) = true := by
    cases hmany : s.flag.many with
    | false => simp [Assignment.isGiven_eq_false_iff.2 (h hmany)]
    | true => simp
  unfold Assignment.give
  rw [if_neg hfresh, s.read_eq]
  rfl

/-- No flag for one value would have two, were these settings added. -/
def Unrepeated (a : Assignment) (settings : List Setting) : Prop :=
  ∀ s ∈ settings, s.flag.many = false →
    (Assignment.values (a ++ allGiven settings) s.flag.name).length ≤ 1

namespace Unrepeated

variable {a : Assignment} {s : Setting} {settings : List Setting}

theorem tail (h : Unrepeated a (s :: settings)) : Unrepeated (a ++ s.given) settings := by
  intro s' hs' hmany
  have hle := h s' (List.mem_cons_of_mem _ hs') hmany
  rwa [allGiven_cons, ← List.append_assoc] at hle

theorem give_head (h : Unrepeated a (s :: settings)) :
    a.give s.flag s.text = .ok (a ++ s.given) := by
  refine s.give_eq fun hmany => ?_
  have hle := h s List.mem_cons_self hmany
  have hone := length_values hmany
  rw [allGiven_cons, Assignment.values_append, Assignment.values_append, values_given, if_pos rfl,
    List.length_append, List.length_append, hone] at hle
  exact List.eq_nil_of_length_eq_zero (by omega)

end Unrepeated

end Setting

/-! ## §3. The run over settings. -/

namespace Level

/-- The names at a level can be told apart from what stands around them. -/
structure Lawful (level : Level) : Prop where
  name_ne_empty : ∀ flag ∈ level.flags, flag.name ≠ ""
  no_equals : ∀ flag ∈ level.flags, '=' ∉ flag.name.toList
  nodup : (level.flags.map Flag.name).Nodup
  no_dash : ∀ word ∈ level.commands, word.toList.head? ≠ some '-'

/-- These words write these settings, each value behind an equals sign or,
where it does not look like a flag, apart. -/
inductive Writes (level : Level) : List String → List Setting → Prop
  | nil : Writes level [] []
  | attached (s : Setting) {words : List String} {settings : List Setting}
      (hflag : level.flags.find? (·.name == s.flag.name) = some s.flag)
      (h : Writes level words settings) :
      Writes level (("--" ++ s.flag.name ++ "=" ++ s.text) :: words) (s :: settings)
  | apart (s : Setting) {words : List String} {settings : List Setting}
      (hflag : level.flags.find? (·.name == s.flag.name) = some s.flag)
      (hplain : Token.ofArgument s.text = .plain) (h : Writes level words settings) :
      Writes level (("--" ++ s.flag.name) :: s.text :: words) (s :: settings)

theorem long?_of_find? {level : Level} {flag : Flag}
    (h : level.flags.find? (·.name == flag.name) = some flag) :
    level.long? flag.name = some (.flag flag) := by
  unfold long?
  rw [h]

section

variable {level : Level} (hlevel : level.Lawful)

include hlevel

/-- A word that begins with a dash is no command. -/
theorem isCommand_dash {word : String} (h : word.toList.head? = some '-') :
    level.isCommand word = false := by
  have hcontains : word ∉ level.commands := fun hmem => hlevel.no_dash word hmem h
  have hhelp : word ≠ "help" := by
    rintro rfl
    exact absurd h (by decide)
  simp [isCommand, hcontains, hhelp]

/-- One flag with its value behind an equals sign, which is read at once. -/
theorem scan_attached {flag : Flag} {p : Progress} {a : Assignment}
    (hflag : level.flags.find? (·.name == flag.name) = some flag) (hp : p.settle = .ok a)
    (text : String) (rest : List String) :
    level.scan p (("--" ++ flag.name ++ "=" ++ text) :: rest)
      = a.give flag text >>= fun given => level.scan ⟨given, none⟩ rest := by
  have htoken := Token.ofArgument_attached
    (hlevel.no_equals _ (List.mem_of_find?_eq_some hflag)) text
  have hcommand : level.isCommand ("--" ++ flag.name ++ "=" ++ text) = false :=
    isCommand_dash hlevel (by simp)
  rw [scan.eq_def]
  simp only [hcommand, Bool.and_false, Bool.false_eq_true, if_false, htoken,
    long?_of_find? hflag, hp]
  rfl

/-- One flag with its value apart, which is not read yet. -/
theorem scan_apart {s : Setting} {p : Progress} {a : Assignment}
    (hflag : level.flags.find? (·.name == s.flag.name) = some s.flag)
    (hplain : Token.ofArgument s.text = .plain) (hp : p.settle = .ok a) (rest : List String) :
    level.scan p (("--" ++ s.flag.name) :: s.text :: rest)
      = level.scan ⟨a, some (s.flag, some s.text)⟩ rest := by
  have hmem := List.mem_of_find?_eq_some hflag
  have htoken := Token.ofArgument_name (hlevel.no_equals _ hmem) (hlevel.name_ne_empty _ hmem)
  have hcommand : level.isCommand ("--" ++ s.flag.name) = false :=
    isCommand_dash hlevel (by simp)
  rw [scan.eq_def]
  simp only [hcommand, Bool.and_false, Bool.false_eq_true, if_false, htoken,
    long?_of_find? hflag, hp]
  show level.scan ⟨a, some (s.flag, none)⟩ (s.text :: rest) = _
  rw [scan.eq_def]
  simp only [hplain]
  rfl

/-- **Words that write settings give them, and the run goes on behind them.** -/
theorem scan_written {words : List String} {settings : List Setting}
    (h : level.Writes words settings) :
    ∀ {p : Progress} {a : Assignment}, p.settle = .ok a → p.awaiting? = none →
      Setting.Unrepeated a settings →
      ∃ p', p'.settle = .ok (a ++ Setting.allGiven settings) ∧ p'.awaiting? = none ∧
        ∀ rest, level.scan p (words ++ rest) = level.scan p' rest := by
  -- one flag and its value at a time; the invariant is that the progress
  -- settles to what has been given, and waits for no value
  induction h with
  | nil =>
      intro p a hp hwait _
      exact ⟨p, by rw [Setting.allGiven, List.flatMap_nil, List.append_nil, hp], hwait,
        fun rest => rfl⟩
  | @attached s words settings hflag _ ih =>
      intro p a hp _ hfresh
      obtain ⟨p', hp', hwait', hscan⟩ :=
        ih (p := ⟨a ++ s.given, none⟩) rfl rfl hfresh.tail
      refine ⟨p', ?_, hwait', fun rest => ?_⟩
      · rw [hp', Setting.allGiven_cons, List.append_assoc]
      · rw [List.cons_append, scan_attached hlevel hflag hp, hfresh.give_head]
        exact hscan rest
  | @apart s words settings hflag hplain _ ih =>
      intro p a hp _ hfresh
      -- the value waits to be read, so nothing but `settle` knows of it
      have hsettle : Progress.settle ⟨a, some (s.flag, some s.text)⟩ = .ok (a ++ s.given) :=
        hfresh.give_head
      obtain ⟨p', hp', hwait', hscan⟩ := ih hsettle rfl hfresh.tail
      refine ⟨p', ?_, hwait', fun rest => ?_⟩
      · rw [hp', Setting.allGiven_cons, List.append_assoc]
      · rw [List.cons_append, List.cons_append, scan_apart hlevel hflag hplain hp, hscan]

end

end Level

end MerkleAirdrop.CommandLine
