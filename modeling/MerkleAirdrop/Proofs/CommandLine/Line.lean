/-
  MerkleAirdrop.Proofs.CommandLine.Line
  ─────────────────────────────────────
  **A COMMAND LINE ASKS FOR WHAT ITS FLAGS SAY.**

      Line.parse_eq   whatever order its flags stand in, however they are
                      written and whichever of them the environment holds, a
                      command line is read as its command with the values of
                      its flags

  Only the values of each flag matter: a command is made from them alone
  (`Subcommand.build_congr`).
-/
import MerkleAirdrop.Proofs.CommandLine.Scan
import Mathlib.Data.List.Nodup

namespace MerkleAirdrop.CommandLine

variable {environment : List (String × String)}

/-! ## §1. What the environment adds. -/

namespace Assignment

/-- The flags that are not given and whose variables are set, with the texts of
these. -/
def leftOut (environment : List (String × String)) (a : Assignment) (flags : List Flag) :
    List (Flag × String) :=
  flags.filterMap fun flag =>
    if a.isGiven flag then none else (environment.lookup flag.variableName).map (flag, ·)

variable {a : Assignment} {flag : Flag} {flags : List Flag}

theorem leftOut_cons_given (h : a.isGiven flag = true) :
    leftOut environment a (flag :: flags) = leftOut environment a flags :=
  List.filterMap_cons_none (if_pos h)

theorem leftOut_cons_unset (h : environment.lookup flag.variableName = none) :
    leftOut environment a (flag :: flags) = leftOut environment a flags :=
  List.filterMap_cons_none (by rw [h]; exact ite_self none)

theorem leftOut_cons_set {text : String} (h : ¬ a.isGiven flag = true)
    (htext : environment.lookup flag.variableName = some text) :
    leftOut environment a (flag :: flags) = (flag, text) :: leftOut environment a flags :=
  List.filterMap_cons_some (by rw [if_neg h, htext]; rfl)

/-- To give one flag is to give none of another name. -/
theorem leftOut_append_given {s : Setting} (h : s.flag.name ∉ flags.map Flag.name) :
    leftOut environment (a ++ s.given) flags = leftOut environment a flags := by
  refine List.filterMap_congr fun flag hflag => ?_
  have hname : s.flag.name ≠ flag.name := fun hname => h (hname ▸ List.mem_map_of_mem hflag)
  have hother : isGiven s.given flag = false :=
    isGiven_eq_false_iff.2 (by rw [Setting.values_given, if_neg hname])
  rw [isGiven_append, hother, Bool.or_false]

/-- **What was left out is filled from the environment.** -/
theorem fillFrom_eq (hnodup : (flags.map Flag.name).Nodup) :
    ∀ {a : Assignment} {filled : List Setting},
      filled.map (fun s => (s.flag, s.text)) = leftOut environment a flags →
      a.fillFrom environment flags = .ok (a ++ Setting.allGiven filled) := by
  -- the flags are asked for one by one while what is given grows, so what is
  -- given is quantified over
  induction flags with
  | nil =>
      intro a filled hfilled
      rw [List.map_eq_nil_iff.1 hfilled]
      exact congrArg _ (List.append_nil a).symm
  | cons flag flags ih =>
      intro a filled hfilled
      rw [List.map_cons, List.nodup_cons] at hnodup
      unfold fillFrom
      by_cases hgiven : a.isGiven flag = true
      · rw [leftOut_cons_given hgiven] at hfilled
        rw [if_pos hgiven, ih hnodup.2 hfilled]
      · rw [if_neg hgiven]
        cases htext : environment.lookup flag.variableName with
        | none =>
            rw [leftOut_cons_unset htext] at hfilled
            exact ih hnodup.2 hfilled
        | some text =>
            rw [leftOut_cons_set hgiven htext] at hfilled
            obtain ⟨s, filled, rfl, hs, hrest⟩ := List.map_eq_cons_iff.1 hfilled
            obtain ⟨rfl, rfl⟩ := Prod.mk.inj hs
            have hfresh : a.values s.flag.name = [] :=
              isGiven_eq_false_iff.1 (Bool.eq_false_iff.2 hgiven)
            show (a.give s.flag s.text >>= fun a => a.fillFrom environment flags) = _
            rw [s.give_eq fun _ => hfresh]
            show (a ++ s.given).fillFrom environment flags = _
            rw [← leftOut_append_given hnodup.1] at hrest
            rw [ih hnodup.2 hrest, Setting.allGiven_cons, List.append_assoc]

end Assignment

/-! ## §2. Levels by what they give. -/

namespace Level

/-- The level's flags that take one value have at most one. -/
def Admits (level : Level) (a : Assignment) : Prop :=
  ∀ flag ∈ level.flags, flag.many = false → (a.values flag.name).length ≤ 1

/-- No flag has two values where none is named twice. -/
theorem admits_of_nodup (level : Level) {a : Assignment} (h : (a.map Prod.fst).Nodup) :
    level.Admits a := by
  intro flag _ _
  have hlength : (a.values flag.name).length = (a.map Prod.fst).count flag.name := by
    rw [Assignment.values, List.length_map, ← List.countP_eq_length_filter, List.count,
      List.countP_map]
    rfl
  rw [hlength]
  exact List.nodup_iff_count_le_one.1 h flag.name

/-- These words give the level's flags these values, each flag its own in this
order, with what the environment has for the flags that they leave out.
Between flags the order does not matter. -/
def Gives (level : Level) (environment : List (String × String)) (words : List String)
    (a : Assignment) : Prop :=
  ∃ written filled, level.Writes words written ∧
    filled.map (fun s => (s.flag, s.text))
      = (Setting.allGiven written).leftOut environment level.flags ∧
    ∀ name, (Setting.allGiven (written ++ filled)).values name = a.values name

theorem Writes.find?_of_mem {level : Level} {words : List String} {settings : List Setting}
    (h : level.Writes words settings) : ∀ s ∈ settings,
      level.flags.find? (·.name == s.flag.name) = some s.flag := by
  induction h with
  | nil => exact List.forall_mem_nil _
  | attached s hflag _ ih => exact List.forall_mem_cons.2 ⟨hflag, ih⟩
  | apart s hflag _ _ ih => exact List.forall_mem_cons.2 ⟨hflag, ih⟩

/-- The run through words that give a level's flags values goes on behind them,
and comes to these values if nothing else is given. -/
theorem exists_of_gives {level : Level} (hlevel : level.Lawful)
    {words : List String} {a : Assignment} (h : level.Gives environment words a)
    (hadmits : level.Admits a) :
    ∃ p b, (∀ rest, level.scan .initial (words ++ rest) = level.scan p rest) ∧
      p.awaiting? = none ∧ level.finish environment p = .ok b ∧ b.values = a.values := by
  obtain ⟨written, filled, hwrites, hfilled, hvalues⟩ := h
  have hfresh : Setting.Unrepeated [] written := by
    intro s hs hmany
    have hmem := List.mem_of_find?_eq_some (hwrites.find?_of_mem s hs)
    have hle := hadmits _ hmem hmany
    -- what is written is a part of what is given in the end
    rw [← hvalues, Setting.allGiven_append, Assignment.values_append, List.length_append] at hle
    exact Nat.le_of_add_right_le hle
  obtain ⟨p, hp, hwait, hscan⟩ := scan_written hlevel hwrites (p := .initial) rfl rfl hfresh
  refine ⟨p, Setting.allGiven written ++ Setting.allGiven filled, hscan, hwait, ?_, ?_⟩
  · unfold finish
    rw [hp]
    exact Assignment.fillFrom_eq hlevel.nodup hfilled
  · funext name
    rw [← hvalues, Setting.allGiven_append]

end Level

/-! ## §3. Commands by the values of their flags. -/

namespace Subcommand

/-- The flags of a command can be told apart. -/
theorem lawful_level : ∀ s ∈ subcommands, s.level.Lawful := by
  intro s hs
  have hempty : ∀ s ∈ subcommands, ∀ flag ∈ s.flags, flag.name ≠ "" := by decide +kernel
  have hequals : ∀ s ∈ subcommands, ∀ flag ∈ s.flags, '=' ∉ flag.name.toList := by
    decide +kernel
  have hnodup : ∀ s ∈ subcommands, (s.flags.map Flag.name).Nodup := by decide +kernel
  exact ⟨hempty s hs, hequals s hs, hnodup s hs, List.forall_mem_nil _⟩

/-- A command is made from the values of its flags. -/
theorem build_congr {s : Subcommand} (hs : s ∈ subcommands) {a b : Assignment}
    (h : a.values = b.values) : s.build a = s.build b := by
  simp only [subcommands, List.mem_cons, List.not_mem_nil, or_false] at hs
  rcases hs with rfl | rfl | rfl | rfl | rfl | rfl | rfl | rfl | rfl | rfl <;>
    simp only [seeds?, Assignment.address?, Assignment.u64?, Assignment.i64?, Assignment.hash?,
      Assignment.hashes, Assignment.text?, Assignment.errorCode?, h]

/-- The command with these values of its flags, or the refusal for what is
missing. -/
def made (s : Subcommand) (a : Assignment) : Except UsageError Command :=
  (s.build a).elim (.error .missingFlag) .ok

/-- **Behind a command, words that give its flags values ask for what is made from
these.** -/
theorem parse_of_gives {s : Subcommand} (hs : s ∈ subcommands) {words : List String}
    {a : Assignment} (h : s.level.Gives environment words a) (hadmits : s.level.Admits a) :
    s.parse environment words = s.made a := by
  obtain ⟨p, b, hscan, hwait, hfinish, hvalues⟩ :=
    Level.exists_of_gives (lawful_level s hs) h hadmits
  have hend : s.level.scan .initial words = .ok (p, none) := by
    have hscan := hscan []
    rw [List.append_nil] at hscan
    rw [hscan]
    rfl
  unfold parse made
  rw [hend]
  show (s.level.finish environment p >>= fun given => _) = _
  rw [hfinish, ← build_congr hs hvalues]
  simp only [bind, Except.bind]
  cases s.build b <;> rfl

end Subcommand

/-! ## §4. Whole lines. -/

namespace Invocation

theorem lawful_topLevel : topLevel.Lawful := by
  refine ⟨?_, ?_, ?_, ?_⟩ <;> decide +kernel

/-- What may stand before a command. -/
def globals (url? : Option String) (program? : Option Address) : Assignment :=
  (url?.toList.map fun url => ("rpc-url", .text url)) ++
    program?.toList.map fun program => ("program-id", .address program)

theorem admits_globals (url? : Option String) (program? : Option Address) :
    topLevel.Admits (globals url? program?) := by
  intro flag hflag _
  simp only [topLevel, List.mem_cons, List.not_mem_nil, or_false] at hflag
  rcases hflag with rfl | rfl <;> cases url? <;> cases program? <;> simp [globals, Flag.single]

theorem text?_globals (url? : Option String) (program? : Option Address) :
    (globals url? program?).text? "rpc-url" = url? := by
  cases url? <;> simp [globals, Assignment.text?]

theorem address?_globals (url? : Option String) (program? : Option Address) :
    (globals url? program?).address? "program-id" = program? := by
  cases program? <;> simp [globals, Assignment.address?]

/-- The run through the top level stops at the command. -/
theorem scan_command {name : String} {s : Subcommand}
    (hs : subcommands.find? (·.name == name) = some s) {p : Progress} (hwait : p.awaiting? = none)
    (words : List String) : topLevel.scan p (name :: words) = .ok (p, some (name, words)) := by
  have hfound := List.find?_some hs
  have hname : s.name = name := eq_of_beq hfound
  have hmem : name ∈ topLevel.commands :=
    hname ▸ List.mem_map_of_mem (List.mem_of_find?_eq_some hs)
  have hcontains : topLevel.commands.contains name = true := List.elem_eq_true_of_mem hmem
  have hcommand : topLevel.isCommand name = true := by
    unfold Level.isCommand
    rw [hcontains, Bool.true_or]
  rw [Level.scan.eq_def]
  simp only [hwait, Option.isNone_none, hcommand, hcontains, Bool.and_self, if_true]

/-- **What stands behind a command decides what is asked for**, where nothing is
wrong in front of it. -/
theorem parse_command {url? : Option String} {program? : Option Address} {name : String}
    {s : Subcommand} {top : List String} (hs : subcommands.find? (·.name == name) = some s)
    (htop : topLevel.Gives environment top (globals url? program?)) (words : List String) :
    parse environment (top ++ name :: words) = (s.parse environment words).map fun command => {
      rpcUrl := url?.getD defaultRpcUrl
      program := program?.getD Program.airdrop
      command := command } := by
  obtain ⟨p, b, hscan, hwait, hfinish, hvalues⟩ :=
    Level.exists_of_gives lawful_topLevel htop (admits_globals url? program?)
  have hurl : b.text? "rpc-url" = url? := by
    rw [← text?_globals url? program?, Assignment.text?, hvalues]
    rfl
  have hprogram : b.address? "program-id" = program? := by
    rw [← address?_globals url? program?, Assignment.address?, hvalues]
    rfl
  have hstop : Subcommand.parseStop environment (some (name, words))
      = some <$> s.parse environment words := by
    unfold Subcommand.parseStop
    simp only [hs]
  -- the run through the top level, then the words behind the command, then
  -- what the top level was given
  unfold parse
  rw [hscan, scan_command hs hwait]
  show (Subcommand.parseStop environment (some (name, words)) >>= fun command? =>
    topLevel.finish environment p >>= fun given => _) = _
  rw [hstop]
  cases s.parse environment words with
  | error e => rfl
  | ok command =>
    show (topLevel.finish environment p >>= fun given => _) = _
    rw [hfinish]
    show Except.ok (Invocation.mk ((b.text? "rpc-url").getD _) ((b.address? "program-id").getD _)
      command) = _
    rw [hurl, hprogram]
    rfl

end Invocation

/-- In this environment, a command line that names a command and gives its flags
these values, with this node and this program named before it. -/
inductive Line (environment : List (String × String)) (url? : Option String)
    (program? : Option Address) (name : String) (a : Assignment) : List String → Prop
  | mk {s : Subcommand} {top words : List String}
      (hs : subcommands.find? (·.name == name) = some s)
      (htop : Invocation.topLevel.Gives environment top (Invocation.globals url? program?))
      (hwords : s.level.Gives environment words a) :
      Line environment url? program? name a (top ++ name :: words)

/-- Under this name, flags of these values ask for this command. -/
def AsksFor (name : String) (a : Assignment) (command : Command) : Prop :=
  ∃ s, subcommands.find? (·.name == name) = some s ∧ s.level.Admits a ∧ s.build a = some command

namespace Line

variable {url? : Option String} {program? : Option Address} {name : String} {a : Assignment}
  {arguments : List String} {command : Command}

/-- **A command line asks for what its flags say.** -/
theorem parse_eq (h : Line environment url? program? name a arguments)
    (hasks : AsksFor name a command) :
    Invocation.parse environment arguments = .ok {
      rpcUrl := url?.getD Invocation.defaultRpcUrl
      program := program?.getD Program.airdrop
      command := command } := by
  obtain ⟨s, hs, hadmits, hbuild⟩ := hasks
  cases h with
  | @mk s' top words hs' htop hwords =>
    obtain rfl : s = s' := Option.some.inj (hs.symm.trans hs')
    rw [Invocation.parse_command hs htop,
      Subcommand.parse_of_gives (List.mem_of_find?_eq_some hs) hwords hadmits, Subcommand.made,
      hbuild]
    rfl

end Line

end MerkleAirdrop.CommandLine
