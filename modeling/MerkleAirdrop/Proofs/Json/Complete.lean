/-
  MerkleAirdrop.Proofs.Json.Complete
  ──────────────────────────────────
  **EVERY JSON TEXT IS READ AS THE VALUE THAT IT WRITES.**

      Json.TextOf.parse?_eq   TextOf text j → parse? text = some j

  One case for each way to spell a value.  What stands behind a value is
  arbitrary but for what would prolong a number, so that a value is passed
  over exactly, however deep it nests.
-/
import MerkleAirdrop.Proofs.Json.Scalar

namespace MerkleAirdrop.Json

theorem SpellsName.reads {cs : List Char} {name : Option String} (h : SpellsName cs name) :
    ReadsName (cs ++ [':']) name := by
  cases h with
  | @quoted bs cs bs' _ hbs htext hbs' =>
    have hread := ReadsName.quoted hbs htext.reads hbs'
    simpa using hread

-- the three kinds of spelling contain each other, and each case leaves the rest
-- of the text to the composition laws of the readers

mutual

/-- **Every spelling of a value is read as the value.** -/
theorem Spells.reads : ∀ {cs : List Char} {j : Json}, Spells cs j → Reads cs j
  | _, _, .null => .null
  | _, _, .bool b => .bool b
  | _, _, .num h => h.reads
  | _, _, .str h => .str h.reads
  | _, _, .arr_nil hbs => .arr_nil hbs
  | _, _, .arr h => .arr h.reads
  | _, _, .obj_nil hbs => .obj_nil hbs
  | _, _, .obj h => .obj h.reads

/-- Items are read up to the closing bracket. -/
theorem SpellsItems.reads : ∀ {cs : List Char} {items : List Json}, SpellsItems cs items →
    ReadsItems (cs ++ [']']) items
  | _, _, .one hbs h hbs' => by
    have hread := ReadsItems.one (h.reads.blanks hbs) hbs'
    simpa using hread
  | _, _, .more hbs h hbs' hrest => by
    have hread := ReadsItems.more (h.reads.blanks hbs) hbs' hrest.reads
    simpa using hread

/-- Members are read up to the closing brace. -/
theorem SpellsMembers.reads : ∀ {cs : List Char} {members : List (Option String × Json)},
    SpellsMembers cs members → ReadsMembers (cs ++ ['\x7d']) members
  | _, _, .one hname hbs h hbs' => by
    have hread := ReadsMembers.one hname.reads (h.reads.blanks hbs) hbs'
    simpa using hread
  | _, _, .more hname hbs h hbs' hrest => by
    have hread := ReadsMembers.more hname.reads (h.reads.blanks hbs) hbs' hrest.reads
    simpa using hread

end

/-- **Every JSON text is read as the value that it writes.** -/
theorem TextOf.parse?_eq {text : String} {j : Json} (h : TextOf text j) :
    parse? text = some j := by
  cases h with
  | mk hbs hspells hbs' =>
    have hread := (hspells.reads.blanks hbs).parse?_eq hbs'
    simpa using hread

end MerkleAirdrop.Json
