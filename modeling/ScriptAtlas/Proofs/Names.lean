import ScriptAtlas.Proofs.Decimals
import ScriptAtlas.Proofs.Dependencies
import ScriptAtlas.Proofs.Spelling

/-!
What the lists of lines and chunks hold: names as they are spelled, tags of the classification table and
the fixed names of business functions.
-/

namespace ScriptAtlas

open Pattern

namespace Vocabulary

def fixedTags : List Text :=
  rules.filterMap fun rule =>
    match rule.emission with
    | .fixed tag => some tag
    | .marked _ _ _ => none

def tagLabels : List Text :=
  rules.filterMap fun rule =>
    match rule.emission with
    | .fixed _ => none
    | .marked label _ _ => some label

/-- What a rule can report: a fixed tag, or a name after a label. -/
def IsTag (holds : Text → Prop) (tag : Text) : Prop :=
  tag ∈ fixedTags ∨ ∃ label ∈ tagLabels, ∃ name, holds name ∧ tag = label ++ name

theorem unmarked_spells {p : Pattern} (none : p.marks.isEmpty = true) : ∀ body ∈ p.marks, body.Spells := by
  rw [List.isEmpty_iff.mp none]
  simp

theorem family_spells {label : String} {names : List String}
    (letters : (names.all fun name => (Text.ofString name).all isSpellingByte) = true) :
    ∀ body ∈ (Rule.family label names).pattern.marks, body.Spells := by
  have marked : (Rule.family label names).pattern.marks = [oneOf names] := by
    change (oneOf names).marks ++ [oneOf names] ++ [] = _
    rw [marks_oneOf]
    rfl
  rw [marked]
  exact List.forall_mem_singleton.mpr (spells_oneOf letters)

theorem rules_spell : ∀ rule ∈ rules, ∀ body ∈ rule.pattern.marks, body.Spells := by
  simp only [rules, List.forall_mem_cons]
  and_intros
  all_goals first
    | exact unmarked_spells rfl
    | exact family_spells (by decide +kernel)
    | decide +kernel

theorem tags_areTags {holds : Text → Prop} (spelled : Spelled holds) {rule : Rule} (listed : rule ∈ rules)
    (code : Text) : ∀ tag ∈ rule.tags code, IsTag holds tag := by
  intro tag member
  rw [Rule.tags] at member
  split at member
  · rename_i fixed emission
    split at member
    · rw [List.mem_singleton] at member
      exact .inl (List.mem_filterMap.mpr ⟨rule, listed, by rw [emission, member]⟩)
    · cases member
  · rename_i label each accepts emission
    rw [List.mem_eraseDups, List.mem_filterMap] at member
    obtain ⟨hit, found, shown⟩ := member
    obtain ⟨name, first, rfl⟩ := Option.map_eq_some_iff.mp shown
    refine .inr ⟨label, List.mem_filterMap.mpr ⟨rule, listed, by rw [emission]⟩, name, ?_, rfl⟩
    exact all_marked (fun body marked => reads_of_spells spelled (rules_spell rule listed body marked))
      hit (List.mem_filter.mp found).1 name (List.mem_of_mem_head? first)

end Vocabulary

open Vocabulary

structure NameLists where
  operations : List Text
  declared : List Text
  used : List Text
  tables : List Text
  control : List Text
  business : List Text

/-- Names as they are spelled, tags of rules, and fixed names of business functions. -/
structure NameLists.Named (holds : Text → Prop) (n : NameLists) : Prop where
  operations : ∀ tag ∈ n.operations, IsTag holds tag
  declared : ∀ name ∈ n.declared, holds name
  used : ∀ name ∈ n.used, holds name
  tables : ∀ name ∈ n.tables, holds name
  control : ∀ word ∈ n.control, holds word
  business : ∀ name ∈ n.business, name ∈ businessFunctions.map Prod.fst

theorem NameLists.Named.empty {holds : Text → Prop} : (NameLists.mk [] [] [] [] [] []).Named holds := by
  constructor <;> simp

namespace Line

def names (l : Line) : NameLists :=
  ⟨l.operations, l.declared, l.used, l.tables, l.control, l.business⟩

theorem mem_addNames {names new : List Text} {name : Text} (member : name ∈ addNames names new) :
    name ∈ names ∨ name ∈ new := by
  rw [addNames] at member
  induction new generalizing names with
  | nil => exact .inl member
  | cons first new ih =>
      rw [List.foldl_cons] at member
      rcases ih member with known | later
      · split at known
        · exact .inl known
        · rcases List.mem_append.mp known with old | here
          · exact .inl old
          · exact .inr (List.mem_singleton.mp here ▸ List.mem_cons_self)
      · exact .inr (List.mem_cons_of_mem first later)

theorem businessOf_mem (upper : Text) :
    ∀ name ∈ businessOf upper, name ∈ businessFunctions.map Prod.fst := by
  intro name member
  obtain ⟨entry, listed, rfl⟩ := List.mem_map.mp member
  exact List.mem_map_of_mem (List.mem_filter.mp listed).1

section Marked

variable {holds : Text → Prop} {p : Pattern} (each : ∀ body ∈ p.marks, body.Reads holds)

include each

theorem firstMarked_holds (code : Text) : ∀ name ∈ firstMarked p code, holds name := by
  intro name member
  obtain ⟨hit, found, first⟩ := List.mem_filterMap.mp member
  exact all_marked each hit found name (List.mem_of_mem_head? first)

theorem typedNames_holds (code : Text) : ∀ name ∈ typedNames p code, holds name := by
  intro name member
  obtain ⟨hit, found, first⟩ := List.mem_filterMap.mp member
  have marked := all_marked each hit found
  split at first
  · rename_i shown
    split at first
    · cases first
    · cases first
      exact marked name (by rw [shown]; exact List.mem_cons_self)
  · cases first

end Marked

section Spelled

variable {holds : Text → Prop} (spelled : Spelled holds)

include spelled

theorem variableName_reads : variableName.Reads holds :=
  Reads.seq spelled (reads_of_spells spelled (by decide +kernel))
    (Reads.some1 spelled (Reads.wordChar spelled))

theorem word_reads : (some1 wordChar).Reads holds :=
  Reads.some1 spelled (Reads.wordChar spelled)

theorem tableName_reads : (some1 (wordCharOr "#[].")).Reads holds :=
  Reads.some1 spelled (Reads.alt (reads_of_spells spelled (by decide +kernel)) (Reads.wordChar spelled))

theorem declarationsOf_holds (code upper : Text) : ∀ name ∈ declarationsOf code upper, holds name := by
  intro name member
  have names := variableName_reads spelled
  have word := word_reads spelled
  rcases mem_addNames member with none | found
  · cases none
  simp only [List.mem_append] at found
  rcases found with ((declared | cursor) | parameter) | listed
  · refine firstMarked_holds (p := declaredVariable) (fun body marked => ?_) code name declared
    rw [show declaredVariable.marks = [variableName] from rfl, List.mem_singleton] at marked
    exact marked ▸ names
  · refine firstMarked_holds (p := declaredCursor) (fun body marked => ?_) code name cursor
    rw [show declaredCursor.marks = [some1 wordChar] from rfl, List.mem_singleton] at marked
    exact marked ▸ word
  · refine typedNames_holds (p := routineParameter) ?_ code name parameter
    rw [show routineParameter.marks = [variableName, some1 wordChar] from rfl]
    simpa using ⟨names, word⟩
  · split at listed
    · refine typedNames_holds (p := listedVariable) ?_ code name listed
      rw [show listedVariable.marks = [variableName, some1 wordChar] from rfl]
      simpa using ⟨names, word⟩
    · cases listed

theorem variablesOf_holds (code : Text) : ∀ name ∈ variablesOf code, holds name := by
  intro name member
  rcases mem_addNames member with none | found
  · cases none
  obtain ⟨hit, read, rfl⟩ := List.mem_map.mp (List.mem_filter.mp found).1
  exact all_text (p := usedVariable) (reads_of_spells spelled (by decide +kernel)) hit read

theorem tablesOf_holds (code upper : Text) : ∀ name ∈ tablesOf code upper, holds name := by
  intro name member
  have table := tableName_reads spelled
  rw [tablesOf] at member
  split at member
  · cases member
  rcases mem_addNames member with none | found
  · cases none
  rcases List.mem_append.mp (List.mem_filter.mp found).1 with reference | deleted
  · refine firstMarked_holds (p := tableReference) (fun body marked => ?_) code name reference
    rw [show tableReference.marks = [some1 (wordCharOr "#[].")] from rfl, List.mem_singleton] at marked
    exact marked ▸ table
  · refine firstMarked_holds (p := deletedTable) (fun body marked => ?_) code name deleted
    rw [show deletedTable.marks = [some1 (wordCharOr "#[].")] from rfl, List.mem_singleton] at marked
    exact marked ▸ table

theorem controlOf_holds (code : Text) : ∀ word ∈ controlOf code, holds word := by
  intro word member
  rw [controlOf, List.mem_eraseDups, List.mem_map] at member
  obtain ⟨hit, read, rfl⟩ := member
  have letters : controlWord.Spells := ⟨trivial, spells_oneOf (by decide +kernel), trivial⟩
  exact all_text (p := controlWord) (reads_of_spells spelled letters) hit read

theorem ofCode_named (code : Text) : (ofCode code).names.Named holds where
  operations tag member := by
    rw [names, ofCode, List.mem_eraseDups, List.mem_flatten] at member
    obtain ⟨tags, listed, member⟩ := member
    obtain ⟨rule, known, rfl⟩ := List.mem_map.mp listed
    exact tags_areTags spelled known _ tag member
  declared := declarationsOf_holds spelled code _
  used := variablesOf_holds spelled code
  tables := tablesOf_holds spelled code _
  control := controlOf_holds spelled _
  business := by simp [names, ofCode]

theorem read_named (raw : Text) (index : Int) : (read raw index).1.names.Named holds := by
  have facts := ofCode_named spelled (strip raw.trim).1
  rw [read]
  dsimp only
  split
  · exact NameLists.Named.empty
  · split
    · exact { NameLists.Named.empty with business := businessOf_mem raw.trim.upper }
    · generalize ofCode (strip raw.trim).1 = code at facts ⊢
      exact { facts with business := businessOf_mem raw.trim.upper }

end Spelled

end Line

/-! ### The names of chunks -/

theorem mem_gatherNames {names : List Text} {name : Text} (member : name ∈ gatherNames names) :
    name ∈ names := by
  have fold : ∀ kept : List (Text × Text), ∀ entry ∈ names.foldl (fun (kept : List (Text × Text)) name =>
      if kept.any fun entry => entry.1 == name.upper then kept else kept ++ [(name.upper, name)]) kept,
      entry ∈ kept ∨ entry.2 ∈ names := by
    clear member
    induction names with
    | nil => exact fun kept entry listed => .inl listed
    | cons first names ih =>
        intro kept entry listed
        rw [List.foldl_cons] at listed
        rcases ih _ entry listed with known | later
        · split at known
          · exact .inl known
          · rcases List.mem_append.mp known with old | here
            · exact .inl old
            · rw [List.mem_singleton] at here
              exact .inr (here ▸ List.mem_cons_self)
        · exact .inr (List.mem_cons_of_mem first later)
  obtain ⟨entry, listed, rfl⟩ := List.mem_map.mp member
  rcases fold [] entry listed with none | found
  · cases none
  · exact found

theorem mem_sortNames {names : List Text} {name : Text} : name ∈ sortNames names ↔ name ∈ names :=
  (List.mergeSort_perm names _).mem_iff

namespace Chunk

def names (c : Chunk) : NameLists :=
  ⟨c.operations, c.declared, c.used, c.tables, c.control, c.business⟩

theorem ofLines_named {holds : Text → Prop} {s : Script} {lo hi : Nat}
    (each : ∀ l ∈ s.slice lo hi, l.names.Named holds) :
    (Chunk.ofLines s lo hi).names.Named holds := by
  have gathered : ∀ names : Line → List Text, ∀ name ∈ gatherNames ((s.slice lo hi).flatMap names),
      ∃ l ∈ s.slice lo hi, name ∈ names l :=
    fun names name member => List.mem_flatMap.mp (mem_gatherNames member)
  constructor <;> intro name member
  · obtain ⟨l, inside, here⟩ := gathered Line.operations name (mem_sortNames.mp member)
    exact (each l inside).operations name here
  · obtain ⟨l, inside, here⟩ := gathered Line.declared name (mem_sortNames.mp member)
    exact (each l inside).declared name here
  · obtain ⟨l, inside, here⟩ := gathered Line.used name (mem_sortNames.mp member)
    exact (each l inside).used name here
  · obtain ⟨l, inside, here⟩ := gathered Line.tables name (mem_sortNames.mp member)
    exact (each l inside).tables name here
  · obtain ⟨l, inside, here⟩ := gathered Line.control name (mem_sortNames.mp member)
    exact (each l inside).control name here
  · obtain ⟨l, inside, here⟩ := gathered Line.business name member
    exact (each l inside).business name here

end Chunk

end ScriptAtlas
