/-
  MerkleAirdrop.Proofs.CommandLine.Answer
  ───────────────────────────────────────
  **THE ANSWER DEPENDS ONLY ON WHICH FLAG HAS WHICH VALUE.**

      run_of_presents   all command lines and environments that present one
                        assignment of values to the flags of a command run
                        alike, and neither the variables of flags that the
                        words give nor other nodes than the one at the url
                        matter

  What a run comes to is written down as a function of the network and the
  assignment (`answer`), in which neither words nor environment occur.  That
  every presentation comes to it goes back to `Level.Gives`, which says the
  same of all flags of a level at once that `Source` says of one.
-/
import MerkleAirdrop.Proofs.CommandLine.RoundTrip

namespace MerkleAirdrop.CommandLine

variable {environment : List (String × String)}

/-! ## §1. Presentations. -/

/-- Where the values of a flag come from, among settings that are written and an
environment. -/
inductive Source (environment : List (String × String)) (written : List Setting) (flag : Flag) :
    List FlagValue → Prop
  /-- From what is written, in this order, if the flag is among it; then its
  variable does not matter. -/
  | words (h : flag ∈ written.map (·.flag)) :
      Source environment written flag
        ((written.filter (·.flag = flag)).flatMap (·.values))
  /-- Else from its variable, if that is set. -/
  | fromVariable {text : String} {values : List FlagValue} (h : flag ∉ written.map (·.flag))
      (hset : environment.lookup flag.variableName = some text)
      (hread : flag.read text = .ok values) : Source environment written flag values
  /-- Else it has none. -/
  | absent (h : flag ∉ written.map (·.flag))
      (hunset : environment.lookup flag.variableName = none) :
      Source environment written flag []

namespace Level

/-- The words write these settings, and with the environment they present the
values of the level's flags. -/
def Presents (level : Level) (environment : List (String × String)) (words : List String)
    (written : List Setting) (a : Assignment) : Prop :=
  level.Writes words written ∧
    ∀ flag ∈ level.flags, Source environment written flag (a.values flag.name)

/-- Values for the flags of a level and for nothing else, one at most for a flag
that takes one. -/
structure Assigns (level : Level) (a : Assignment) : Prop where
  of_flag : ∀ entry ∈ a, entry.1 ∈ level.flags.map Flag.name
  admits : level.Admits a

end Level

/-- A command line and an environment that present values of a command's flags,
and this node and this program before the command.  The settings are those that
the line writes. -/
inductive Presents (environment : List (String × String)) (url? : Option String)
    (program? : Option Address) (s : Subcommand) (a : Assignment) :
    List Setting → List String → Prop
  | mk {top words : List String} {front behind : List Setting}
      (htop : Invocation.topLevel.Presents environment top front
        (Invocation.globals url? program?))
      (hwords : s.level.Presents environment words behind a) :
      Presents environment url? program? s a (front ++ behind) (top ++ s.name :: words)

/-! ## §2. What is presented is given. -/

namespace Setting

/-- Every text has values. -/
theorem values_ne_nil (s : Setting) : s.values ≠ [] := by
  have hpieces : s.flag.pieces s.text ≠ [] := by
    unfold Flag.pieces
    split
    · rw [Flag.splitAt_eq]
      simp [List.splitOn_eq_splitOnP, List.splitOnP_ne_nil]
    · exact List.cons_ne_nil _ _
  intro hvalues
  have hread := s.read_eq
  rw [hvalues, Flag.read, Except.mapM_eq_ok_iff, List.forall₂_nil_right_iff] at hread
  exact hpieces hread

theorem values_allGiven (written : List Setting) (name : String) :
    (allGiven written).values name
      = (written.filter (·.flag.name = name)).flatMap (·.values) := by
  induction written with
  | nil => rfl
  | cons s written ih =>
    rw [allGiven_cons, Assignment.values_append, values_given, ih, List.filter_cons]
    by_cases h : s.flag.name = name <;> simp [h]

/-- Settings of other flags give a flag nothing. -/
theorem values_allGiven_eq_nil {settings : List Setting} {name : String}
    (h : ∀ s ∈ settings, s.flag.name ≠ name) : (allGiven settings).values name = [] := by
  rw [values_allGiven, List.filter_eq_nil_iff.2 fun s hs => by simpa using h s hs]
  rfl

end Setting

namespace Level

variable {level : Level} {words : List String} {written : List Setting}

/-- At a level, a name tells a flag apart. -/
theorem Lawful.eq_of_name (hlevel : level.Lawful) {flag flag' : Flag} (h : flag ∈ level.flags)
    (h' : flag' ∈ level.flags) (hname : flag.name = flag'.name) : flag = flag' :=
  List.inj_on_of_nodup_map hlevel.nodup h h' hname

theorem Writes.flag_mem (h : level.Writes words written) : ∀ s ∈ written, s.flag ∈ level.flags :=
  fun s hs => List.mem_of_find?_eq_some (h.find?_of_mem s hs)

section

variable (hlevel : level.Lawful) (hwrites : level.Writes words written) {flag : Flag}
  (hflag : flag ∈ level.flags)

include hlevel hwrites hflag

/-- What is written for a flag is given to it. -/
theorem values_written : (Setting.allGiven written).values flag.name
    = (written.filter (·.flag = flag)).flatMap (·.values) := by
  rw [Setting.values_allGiven]
  refine congrArg _ (List.filter_congr fun s hs => decide_eq_decide.2 ⟨fun hname => ?_, ?_⟩)
  · exact hlevel.eq_of_name (hwrites.flag_mem s hs) hflag hname
  · exact congrArg Flag.name

/-- A flag is given if it is written, since every text has values. -/
theorem isGiven_written_iff :
    (Setting.allGiven written).isGiven flag = true ↔ flag ∈ written.map (·.flag) := by
  rw [← not_iff_not, Bool.not_eq_true, Assignment.isGiven_eq_false_iff,
    values_written hlevel hwrites hflag, List.flatMap_eq_nil_iff, List.mem_map]
  constructor
  · rintro h ⟨s, hs, rfl⟩
    exact s.values_ne_nil (h s (List.mem_filter.2 ⟨hs, decide_eq_true rfl⟩))
  · intro h s hs
    obtain ⟨hs, hname⟩ := List.mem_filter.1 hs
    exact absurd ⟨s, hs, of_decide_eq_true hname⟩ h

/-- What the words leave out of one flag, its variable fills in. -/
theorem exists_filled_flag {values : List FlagValue} (h : Source environment written flag values) :
    ∃ own : List Setting,
      own.map (fun s => (s.flag, s.text))
        = (Setting.allGiven written).leftOut environment [flag] ∧
      (∀ s ∈ own, s.flag = flag) ∧
      (Setting.allGiven (written ++ own)).values flag.name = values := by
  have hgiven := isGiven_written_iff hlevel hwrites hflag
  have hnone : flag ∉ written.map (·.flag) →
      (Setting.allGiven written).isGiven flag = false := fun hword =>
    Bool.eq_false_iff.2 fun h => hword (hgiven.1 h)
  cases h with
  | words hword =>
    refine ⟨[], ?_, List.forall_mem_nil _, ?_⟩
    · rw [Assignment.leftOut_cons_given (hgiven.2 hword)]
      rfl
    · rw [List.append_nil, values_written hlevel hwrites hflag]
  | @fromVariable text values hword hset hread =>
    refine ⟨[⟨flag, text, values, hread⟩], ?_, List.forall_mem_singleton.2 rfl, ?_⟩
    · rw [Assignment.leftOut_cons_set (Bool.eq_false_iff.1 (hnone hword)) hset]
      rfl
    · rw [Setting.allGiven_append, Assignment.values_append,
        Assignment.isGiven_eq_false_iff.1 (hnone hword), Setting.values_allGiven]
      simp
  | absent hword hunset =>
    refine ⟨[], ?_, List.forall_mem_nil _, ?_⟩
    · rw [Assignment.leftOut_cons_unset hunset]
      rfl
    · rw [List.append_nil, Assignment.isGiven_eq_false_iff.1 (hnone hword)]

end

/-- **What the words leave out, the environment fills in.** -/
theorem exists_filled (hlevel : level.Lawful) (hwrites : level.Writes words written)
    {a : Assignment} {flags : List Flag} (hflags : flags ⊆ level.flags)
    (hnodup : (flags.map Flag.name).Nodup)
    (h : ∀ flag ∈ flags, Source environment written flag (a.values flag.name)) :
    ∃ filled : List Setting,
      filled.map (fun s => (s.flag, s.text))
        = (Setting.allGiven written).leftOut environment flags ∧
      (∀ s ∈ filled, s.flag ∈ flags) ∧
      ∀ flag ∈ flags,
        (Setting.allGiven (written ++ filled)).values flag.name = a.values flag.name := by
  induction flags with
  | nil => exact ⟨[], rfl, List.forall_mem_nil _, List.forall_mem_nil _⟩
  | cons flag flags ih =>
    rw [List.cons_subset] at hflags
    rw [List.map_cons, List.nodup_cons] at hnodup
    rw [List.forall_mem_cons] at h
    obtain ⟨own, hown, hownFlag, hownValues⟩ :=
      exists_filled_flag hlevel hwrites hflags.1 h.1
    obtain ⟨rest, hrest, hrestFlag, hrestValues⟩ := ih hflags.2 hnodup.2 h.2
    have hname : ∀ flag' ∈ flags, flag.name ≠ flag'.name := fun flag' hflag' hname =>
      hnodup.1 (hname ▸ List.mem_map_of_mem hflag')
    refine ⟨own ++ rest, ?_, ?_, List.forall_mem_cons.2 ⟨?_, fun flag' hflag' => ?_⟩⟩
    · rw [List.map_append, hown, hrest]
      exact List.filterMap_append.symm
    · refine List.forall_mem_append.2 ⟨fun s hs => ?_, fun s hs => ?_⟩
      · exact List.mem_cons.2 (.inl (hownFlag s hs))
      · exact List.mem_cons_of_mem _ (hrestFlag s hs)
    · -- the names differ, so the settings of the other flags give this one nothing
      rw [← List.append_assoc, Setting.allGiven_append, Assignment.values_append, hownValues,
        Setting.values_allGiven_eq_nil fun s hs h => hname _ (hrestFlag s hs) h.symm,
        List.append_nil]
    · have hnil : (Setting.allGiven own).values flag'.name = [] :=
        Setting.values_allGiven_eq_nil fun s hs h =>
          hname flag' hflag' ((congrArg Flag.name (hownFlag s hs)).symm.trans h)
      rw [← hrestValues flag' hflag', Setting.allGiven_append, Setting.allGiven_append,
        Setting.allGiven_append, Assignment.values_append, Assignment.values_append,
        Assignment.values_append, hnil, List.nil_append]

/-- **What is presented to a level is given to it.** -/
theorem Presents.gives {a : Assignment} (h : level.Presents environment words written a)
    (hlevel : level.Lawful) (ha : level.Assigns a) : level.Gives environment words a := by
  obtain ⟨hwrites, hsource⟩ := h
  obtain ⟨filled, hfilled, hmem, hvalues⟩ :=
    exists_filled hlevel hwrites (List.Subset.refl _) hlevel.nodup hsource
  refine ⟨written, filled, hwrites, hfilled, fun name => ?_⟩
  by_cases hname : name ∈ level.flags.map Flag.name
  · obtain ⟨flag, hflag, rfl⟩ := List.mem_map.1 hname
    exact hvalues flag hflag
  · -- a name that no flag has has no values on either side
    have hforeign : ∀ s : Setting, s.flag ∈ level.flags → s.flag.name ≠ name :=
      fun s hs h => hname (h ▸ List.mem_map_of_mem hs)
    have hnone : a.values name = [] := by
      refine List.map_eq_nil_iff.2 (List.filter_eq_nil_iff.2 fun entry hentry h => ?_)
      exact hname (eq_of_beq h ▸ ha.of_flag entry hentry)
    rw [hnone]
    refine Setting.values_allGiven_eq_nil (List.forall_mem_append.2 ⟨?_, ?_⟩)
    · exact fun s hs => hforeign s (hwrites.flag_mem s hs)
    · exact fun s hs => hforeign s (hmem s hs)

end Level

/-! ## §3. Variables that do not matter. -/

theorem Source.set {written : List Setting} {flag : Flag} {values : List FlagValue} {key : String}
    (text : String) (h : Source environment written flag values)
    (hkey : flag ∉ written.map (·.flag) → flag.variableName ≠ key) :
    Source ((key, text) :: environment) written flag values := by
  have hlookup : flag ∉ written.map (·.flag) →
      ((key, text) :: environment).lookup flag.variableName
        = environment.lookup flag.variableName := fun hword => by
    rw [List.lookup_cons, beq_eq_false_iff_ne.2 (hkey hword)]
  cases h with
  | words hword => exact .words hword
  | fromVariable hword hset hread => exact .fromVariable hword ((hlookup hword).trans hset) hread
  | absent hword hunset => exact .absent hword ((hlookup hword).trans hunset)

/-- A variable does not matter that is of no flag but such as are written. -/
theorem Level.Presents.set {level : Level} {words : List String} {written : List Setting}
    {a : Assignment} {key : String} (text : String)
    (h : level.Presents environment words written a)
    (hkey : ∀ flag ∈ level.flags, flag ∉ written.map (·.flag) → flag.variableName ≠ key) :
    level.Presents ((key, text) :: environment) words written a :=
  ⟨h.1, fun flag hflag => (h.2 flag hflag).set text (hkey flag hflag)⟩

/-- The variables of the flags before a command and behind it are all different. -/
theorem nodup_variableName : ∀ s ∈ subcommands,
    ((Invocation.topLevel.flags ++ s.flags).map Flag.variableName).Nodup := by
  decide +kernel

namespace Presents

variable {url? : Option String} {program? : Option Address} {s : Subcommand} {a : Assignment}
  {written : List Setting} {arguments : List String}

/-- **The variable of a flag that is written does not matter.** -/
theorem set (hs : s ∈ subcommands)
    (h : Presents environment url? program? s a written arguments) {x : Setting} (hx : x ∈ written)
    (text : String) :
    Presents ((x.flag.variableName, text) :: environment) url? program? s a written arguments := by
  have hnodup := nodup_variableName s hs
  rw [List.map_append, List.nodup_append'] at hnodup
  obtain ⟨hbefore, hbehind, hdisjoint⟩ := hnodup
  cases h with
  | @mk top words front behind htop hwords =>
    rcases List.mem_append.1 hx with hx | hx
    · have hflag := htop.1.flag_mem x hx
      refine .mk (htop.set text fun flag hmem hword hname => ?_)
        (hwords.set text fun flag hmem _ hname => ?_)
      · rw [List.inj_on_of_nodup_map hbefore hmem hflag hname] at hword
        exact hword (List.mem_map_of_mem hx)
      · exact hdisjoint (List.mem_map_of_mem hflag) (hname ▸ List.mem_map_of_mem hmem)
    · have hflag := hwords.1.flag_mem x hx
      refine .mk (htop.set text fun flag hmem _ hname => ?_)
        (hwords.set text fun flag hmem hword hname => ?_)
      · exact hdisjoint (hname ▸ List.mem_map_of_mem hmem) (List.mem_map_of_mem hflag)
      · rw [List.inj_on_of_nodup_map hbehind hmem hflag hname] at hword
        exact hword (List.mem_map_of_mem hx)

end Presents

/-! ## §4. Values that are presented. -/

theorem Invocation.assigns_globals (url? : Option String) (program? : Option Address) :
    topLevel.Assigns (globals url? program?) := by
  refine ⟨?_, admits_globals url? program?⟩
  cases url? <;> cases program? <;> simp [globals, topLevel, Flag.single]

/-- The node and the program are presented one by one. -/
theorem Invocation.presents_globals {url? : Option String} {program? : Option Address}
    {words : List String} {written : List Setting} (hwrites : topLevel.Writes words written)
    (hurl : Source environment written (.single "rpc-url" .text) (url?.toList.map .text))
    (hprogram : Source environment written (.single "program-id" .address)
      (program?.toList.map .address)) :
    topLevel.Presents environment words written (globals url? program?) := by
  have hurlValues : (globals url? program?).values "rpc-url" = url?.toList.map .text := by
    cases url? <;> cases program? <;> rfl
  have hprogramValues : (globals url? program?).values "program-id"
      = program?.toList.map .address := by
    cases url? <;> cases program? <;> rfl
  rw [← hurlValues] at hurl
  rw [← hprogramValues] at hprogram
  exact ⟨hwrites, List.forall_mem_cons.2 ⟨hurl, List.forall_mem_singleton.2 hprogram⟩⟩

/-- The values for a claim are values of its flags. -/
theorem assigns_claimIx (seeds : DistributorSeeds) (claimant : Address)
    (amountUnlocked? amountLocked? : Option UInt64) (proof : List Hash) :
    subcommands[6].level.Assigns
      (claimValues seeds claimant amountUnlocked? amountLocked? proof) := by
  obtain ⟨s, hfind, hadmits, -⟩ :=
    asksFor_claimIx seeds claimant amountUnlocked? amountLocked? proof
  obtain rfl : s = subcommands[6] := (Option.some.inj hfind).symm
  refine ⟨?_, hadmits⟩
  have hnames : ∀ name ∈ ["mint", "creator", "airdrop-version", "claimant", "amount-unlocked",
      "amount-locked", "proof"], name ∈ subcommands[6].level.flags.map Flag.name := fun _ h => h
  intro entry hentry
  refine hnames entry.1 ?_
  simp only [claimValues, seedValues, List.mem_append, List.mem_map, List.mem_cons,
    List.not_mem_nil, or_false] at hentry
  rcases hentry with ((((rfl | rfl | rfl) | rfl) | ⟨n, -, rfl⟩) | ⟨n, -, rfl⟩) | ⟨node, -, rfl⟩ <;>
    simp

/-- A number does not look like a flag. -/
theorem ofArgument_writeU64 (n : UInt64) : Token.ofArgument (Numeral.writeU64 n) = .plain := by
  obtain ⟨c, cs, hcons, hdigit⟩ := Numeral.exists_toDigits_eq_cons n.toNat
  refine Token.ofArgument_plain fun h => ?_
  rw [Numeral.writeU64, Numeral.toList_toString, hcons] at h
  obtain rfl : c = '-' := Option.some.inj h
  exact absurd hdigit (by decide)

/-! ## §5. The answer. -/

/-- A command is found by its name. -/
theorem find?_name : ∀ s ∈ subcommands, subcommands.find? (·.name == s.name) = some s := by
  simp only [subcommands, List.forall_mem_cons]
  exact ⟨rfl, rfl, rfl, rfl, rfl, rfl, rfl, rfl, rfl, rfl, List.forall_mem_nil _⟩

/-- **Only the node at the url is asked.** -/
theorem Invocation.run_congr {i : Invocation} {network network' : Network}
    (h : network' i.rpcUrl = network i.rpcUrl) : i.run network' = i.run network := by
  obtain ⟨url, program, command⟩ := i
  cases command with
  | showDistributor seeds => exact congrArg (showDistributor · program seeds) h
  | showClaimStatus distributor claimant =>
    exact congrArg (showClaimStatus · program distributor claimant) h
  | showSolCustody owner => exact congrArg (showSolCustody · program owner) h
  | _ => rfl

section

variable (network : Network) (url? : Option String) (program? : Option Address) (s : Subcommand)
  (a : Assignment)

/-- What a run comes to that gives a command's flags these values, with this
node and this program named before the command. -/
def answer : Outcome :=
  match s.made a with
  | .error e => .refused e
  | .ok command => .ofResult (Invocation.run
      ⟨url?.getD Invocation.defaultRpcUrl, program?.getD Program.airdrop, command⟩ network)

variable {network url?}

theorem answer_congr {network' : Network}
    (h : network' (url?.getD Invocation.defaultRpcUrl)
      = network (url?.getD Invocation.defaultRpcUrl)) :
    answer network' url? program? s a = answer network url? program? s a := by
  unfold answer
  cases s.made a with
  | error e => rfl
  | ok command => exact congrArg Outcome.ofResult (Invocation.run_congr h)

end

section

variable {url? : Option String} {program? : Option Address} {s : Subcommand} {a : Assignment}
  {written : List Setting} {arguments : List String}

theorem Presents.run_eq (hs : s ∈ subcommands) (ha : s.level.Assigns a)
    (h : Presents environment url? program? s a written arguments) (network : Network) :
    run network environment arguments = answer network url? program? s a := by
  cases h with
  | @mk top words front behind htop hwords =>
    have hparse := Invocation.parse_command (find?_name s hs)
      (htop.gives Invocation.lawful_topLevel (Invocation.assigns_globals url? program?)) words
    rw [Subcommand.parse_of_gives hs
      (hwords.gives (Subcommand.lawful_level s hs) ha) ha.admits] at hparse
    unfold answer
    cases hmade : s.made a with
    | error e =>
      rw [hmade] at hparse
      exact run_of_refusal hparse network
    | ok command =>
      rw [hmade] at hparse
      exact run_of_parse hparse network

/-- **The answer depends only on which flag has which value.**  Every run that
presents these values comes to the same, with the node at the presented url for
all that is asked.  The variables of the flags that the words give do not
matter, whatever their texts, and neither do the nodes at other urls. -/
theorem run_of_presents (hs : s ∈ subcommands) (ha : s.level.Assigns a)
    (h : Presents environment url? program? s a written arguments) (network : Network) :
    run network environment arguments = answer network url? program? s a ∧
      (∀ environment' written' arguments',
        Presents environment' url? program? s a written' arguments' →
          run network environment' arguments' = run network environment arguments) ∧
      (∀ x ∈ written, ∀ text,
        run network ((x.flag.variableName, text) :: environment) arguments
          = run network environment arguments) ∧
      ∀ network' : Network,
        network' (url?.getD Invocation.defaultRpcUrl)
            = network (url?.getD Invocation.defaultRpcUrl) →
          run network' environment arguments = run network environment arguments := by
  have hrun := h.run_eq hs ha network
  refine ⟨hrun, ?_, ?_, ?_⟩
  · intro environment' written' arguments' h'
    rw [h'.run_eq hs ha, hrun]
  · intro x hx text
    rw [(h.set hs hx text).run_eq hs ha, hrun]
  · intro network' hnetwork
    rw [h.run_eq hs ha, hrun, answer_congr program? s a hnetwork]

end

/-- A claim with a proof of two nodes: one line repeats the flag for them and
names the url, the program and the claimant, though there are variables for the
url and the claimant; the other leaves the nodes, the url and the program to the
environment. -/
theorem run_of_presents_claim :
    let a := claimValues ⟨Program.system, Program.associatedToken, 7⟩ Program.token (some 100)
      none [Program.system, Program.token]
    let url := "http://node:8899"
    let address := Address.text
    let dashed (name : String) := "--" ++ name
    let attached (name text : String) := dashed name ++ "=" ++ text
    let environment := [
      ("RPC_URL", "http://other:8899"), ("MINT", address Program.system), ("CLAIMANT", "nobody")]
    let environment' := [
      ("PROOF", ",".intercalate [address Program.system, address Program.token]),
      ("PROGRAM_ID", address Program.system), ("RPC_URL", url)]
    let arguments := [
      attached "program-id" (address Program.system),
      dashed "rpc-url", url,
      "claim-ix",
      attached "proof" (address Program.system),
      dashed "claimant", address Program.token,
      attached "airdrop-version" "7",
      dashed "proof", address Program.token,
      attached "creator" (address Program.associatedToken),
      attached "amount-unlocked" "100"]
    let arguments' := [
      "claim-ix",
      dashed "creator", address Program.associatedToken,
      dashed "amount-unlocked", "100",
      attached "mint" (address Program.system),
      dashed "airdrop-version", "7",
      attached "claimant" (address Program.token)]
    ∃ s ∈ subcommands, s.name = "claim-ix" ∧ s.level.Assigns a ∧
      (∃ written, Presents environment (some url) (some Program.system) s a written arguments) ∧
      (∃ written, Presents environment' (some url) (some Program.system) s a written arguments') ∧
      ∀ network : Network,
        run network environment arguments = answer network (some url) (some Program.system) s a ∧
          run network environment' arguments' = run network environment arguments := by
  intro a url address dashed attached environment environment' arguments arguments'
  let mint := Setting.single "mint" (ValueKind.read_address Program.system)
  let creator := Setting.single "creator" (ValueKind.read_address Program.associatedToken)
  let version := Setting.single "airdrop-version" (ValueKind.read_u64 7)
  let claimant := Setting.single "claimant" (ValueKind.read_address Program.token)
  let unlocked := Setting.single "amount-unlocked" (ValueKind.read_u64 100)
  let proof := Setting.hashes "proof" [Program.system] (List.cons_ne_nil _ _)
  let proof' := Setting.hashes "proof" [Program.token] (List.cons_ne_nil _ _)
  let program := Setting.single "program-id" (ValueKind.read_address Program.system)
  let node := Setting.ofText "rpc-url" url
  have hplain : ∀ x : Address, Token.ofArgument (address x) = .plain := fun x =>
    ofArgument_encode _
  have hurl : Token.ofArgument url = .plain := Token.ofArgument_plain (by decide +kernel)
  have hs : subcommands[6] ∈ subcommands := List.getElem_mem _
  have hassigns : subcommands[6].level.Assigns a := assigns_claimIx _ _ _ _ _
  have hpresents : Presents environment (some url) (some Program.system) subcommands[6] a
      ([program, node] ++ [proof, claimant, version, proof', creator, unlocked]) arguments := by
    have hmint : Flag.read (.single "mint" .address) (address Program.system)
        = .ok [.address Program.system] := mint.read_eq
    have htop : Invocation.topLevel.Writes (arguments.take 3) [program, node] :=
      .attached program rfl <| .apart node rfl hurl .nil
    have hwords : subcommands[6].level.Writes (arguments.drop 4)
        [proof, claimant, version, proof', creator, unlocked] :=
      .attached proof rfl <| .apart claimant rfl (hplain _) <| .attached version rfl <|
        .apart proof' rfl (hplain _) <| .attached creator rfl <| .attached unlocked rfl .nil
    show Presents _ _ _ _ _ _ (arguments.take 3 ++ subcommands[6].name :: arguments.drop 4)
    refine .mk (Invocation.presents_globals htop ?_ ?_) ⟨hwords, ?_⟩
    · exact .words (by decide +kernel)
    · exact .words (by decide +kernel)
    · show ∀ flag ∈ seedFlags ++ [_, _, _, _], _
      simp only [seedFlags, List.cons_append, List.nil_append, List.forall_mem_cons]
      refine ⟨.fromVariable ?_ rfl hmint, .words ?_, .words ?_, .words ?_, .words ?_,
        .absent ?_ rfl, .words ?_, List.forall_mem_nil _⟩ <;> decide +kernel
  have hpresents' : Presents environment' (some url) (some Program.system) subcommands[6] a
      ([] ++ [creator, unlocked, mint, version, claimant]) arguments' := by
    have hnode : Flag.read (.single "rpc-url" .text) url = .ok [.text url] := node.read_eq
    have hprogram : Flag.read (.single "program-id" .address) (address Program.system)
        = .ok [.address Program.system] := program.read_eq
    have hproof : Flag.read ⟨"proof", .hash, true⟩
        (",".intercalate [address Program.system, address Program.token])
          = .ok [.hash Program.system, .hash Program.token] :=
      (Setting.hashes "proof" [Program.system, Program.token] (List.cons_ne_nil _ _)).read_eq
    have hwords : subcommands[6].level.Writes (arguments'.drop 1)
        [creator, unlocked, mint, version, claimant] :=
      .apart creator rfl (hplain _) <| .apart unlocked rfl (ofArgument_writeU64 _) <|
        .attached mint rfl <| .apart version rfl (ofArgument_writeU64 _) <|
        .attached claimant rfl .nil
    show Presents _ _ _ _ _ _ ([] ++ subcommands[6].name :: arguments'.drop 1)
    refine .mk (Invocation.presents_globals .nil ?_ ?_) ⟨hwords, ?_⟩
    · exact .fromVariable (by decide +kernel) rfl hnode
    · exact .fromVariable (by decide +kernel) rfl hprogram
    · show ∀ flag ∈ seedFlags ++ [_, _, _, _], _
      simp only [seedFlags, List.cons_append, List.nil_append, List.forall_mem_cons]
      refine ⟨.words ?_, .words ?_, .words ?_, .words ?_, .words ?_, .absent ?_ rfl,
        .fromVariable ?_ rfl hproof, List.forall_mem_nil _⟩ <;> decide +kernel
  refine ⟨subcommands[6], hs, rfl, hassigns, ⟨_, hpresents⟩, ⟨_, hpresents'⟩, fun network => ?_⟩
  obtain ⟨hanswer, halike, -⟩ := run_of_presents hs hassigns hpresents network
  exact ⟨hanswer, halike _ _ _ hpresents'⟩

end MerkleAirdrop.CommandLine
