import ScriptAtlas.Proofs.ChunkViews
import ScriptAtlas.Proofs.PlainScript

/-!
Scripts that differ in the case of letters and in the blanks around lines have the same chunks, but
for the text of the chunks and the spelling of names.
-/

namespace ScriptAtlas

open Text

/-! ### Names -/

theorem gatherNames_capitals (names : List Text) :
    gatherNames (names.map Text.capitals) = (gatherNames names).map Text.capitals := by
  have fold : ∀ kept : List (Text × Text),
      (names.map Text.capitals).foldl (fun (kept : List (Text × Text)) name =>
          if kept.any fun entry => entry.1 == name.upper then kept else kept ++ [(name.upper, name)])
          (kept.map (Prod.map id Text.capitals)) =
        (names.foldl (fun (kept : List (Text × Text)) name =>
          if kept.any fun entry => entry.1 == name.upper then kept else kept ++ [(name.upper, name)])
          kept).map (Prod.map id Text.capitals) := by
    induction names with
    | nil => exact fun kept => rfl
    | cons name names ih =>
        intro kept
        simp only [List.map_cons, List.foldl_cons, upper_capitals, List.any_map, Function.comp_def,
          Prod.map_fst, id_eq]
        split
        · exact ih kept
        · rw [← ih, List.map_append, List.map_cons, List.map_nil]
          rfl
  have seconds : ∀ kept : List (Text × Text), (kept.map (Prod.map id Text.capitals)).map Prod.snd =
      (kept.map Prod.snd).map Text.capitals := by
    intro kept
    rw [List.map_map, List.map_map]
    rfl
  exact (congrArg (List.map Prod.snd) (fold [])).trans (seconds _)

theorem sortNames_capitals (names : List Text) :
    sortNames (names.map Text.capitals) = (sortNames names).map Text.capitals := by
  rw [sortNames, sortNames, List.map_mergeSort]
  intro a _ b _
  simp only [upper_capitals]

/-! ### Chunks -/

namespace Chunk

/-- A chunk without its text, what is measured of it and its summary, and with its names in capitals. -/
def plain (c : Chunk) : Chunk :=
  { c with
    content := []
    hash := .zero
    tokens := 0
    summary := []
    declared := c.declared.map Text.capitals
    used := c.used.map Text.capitals
    tables := c.tables.map Text.capitals }

end Chunk

theorem ChunkKind.signalled_plain (kind : ChunkKind) (l : Line) :
    kind.signalled l.plain = kind.signalled l := by
  cases kind with
  | declaration => exact congrArg not l.plain_declared_isEmpty
  | _ => rfl

theorem ChunkKind.dominant_plain (lines : List Line) :
    ChunkKind.dominant (lines.map Line.plain) = ChunkKind.dominant lines := by
  simp only [dominant, List.any_map, Function.comp_def, signalled_plain]

theorem names_plain (names : Line → List Text)
    (spelled : ∀ l : Line, names l.plain = (names l).map Text.capitals) (lines : List Line) :
    sortNames (gatherNames ((lines.map Line.plain).flatMap names)) =
      (sortNames (gatherNames (lines.flatMap names))).map Text.capitals := by
  simp only [List.flatMap_map, spelled, ← List.map_flatMap, gatherNames_capitals, sortNames_capitals]

theorem Chunk.ofLines_plain (s : Script) (lo hi : Nat) :
    (Chunk.ofLines s.plain lo hi).plain = (Chunk.ofLines s lo hi).plain := by
  have kept : ∀ names : Line → List Text, (∀ l : Line, names l.plain = names l) →
      ((s.slice lo hi).map Line.plain).flatMap names = (s.slice lo hi).flatMap names := by
    intro names same
    simp only [List.flatMap_map, same]
  simp only [plain, ofLines, Script.plain_slice, Script.plain_weight, ChunkKind.dominant_plain,
    names_plain Line.declared fun _ => rfl, names_plain Line.used fun _ => rfl,
    names_plain Line.tables fun _ => rfl, List.map_map, capitals_comp_capitals,
    kept Line.operations Line.plain_operations, kept Line.control Line.plain_control,
    kept Line.business Line.plain_business]

namespace Divider

variable (d : Divider)

theorem partChunks_plain (part : Part) (ordinal : Int) (parts : List Block) :
    (d.plain.partChunks part ordinal parts).map Chunk.plain =
      (d.partChunks part ordinal parts).map Chunk.plain := by
  induction parts generalizing ordinal with
  | nil => rfl
  | cons b rest ih =>
      have head := Chunk.ofLines_plain d.script b.start b.stop
      rw [partChunks, partChunks, List.map_cons, List.map_cons, ih]
      exact congrArg (fun c : Chunk =>
        { c with part := some { part with ordinal := ordinal } } :: _) head

theorem chunksOf_plain (b : Block) :
    (d.plain.chunksOf b).map Chunk.plain = (d.chunksOf b).map Chunk.plain := by
  have whole := Chunk.ofLines_plain d.script b.start b.stop
  simp only [chunksOf, plain_isOversized, plain_parts, plain_reason, plain_script, Script.plain_slice,
    ChunkKind.dominant_plain]
  split
  · rw [List.map_singleton, List.map_singleton, whole]
  · split
    · rw [List.map_singleton, List.map_singleton, whole]
    · exact d.partChunks_plain _ 1 _

end Divider

theorem Chunk.plain_overlooked : Overlooked plain where
  id _ := rfl
  numbered _ _ := rfl
  placed previous _ next := by cases previous <;> cases next <;> rfl
  declared c := by simp only [plain, List.map_map, Function.comp_def, upper_capitals]
  needed c declarations := by
    simp only [dependenciesOn, plain, List.flatMap_map, upper_capitals]
    rfl
  linked _ _ := rfl
  described c := by
    simp only [plain, described, List.map_map, capitals_comp_capitals]
    rfl

theorem Script.chunks_plain (s : Script) (z : Sizing) :
    (s.plain.chunks z).map Chunk.plain = (s.chunks z).map Chunk.plain := by
  apply Chunk.plain_overlooked.chunks_eq
  have each := Divider.chunksOf_plain ⟨z.normalized, s⟩
  rw [Divider.plain] at each
  simp only [plain_plan, List.map_flatMap, each]

/-! ### Scripts -/

theorem Script.ofLines_plain {a b : List Text} (alike : List.Forall₂ Text.Alike a b) :
    (Script.ofLines a).plain = (Script.ofLines b).plain := by
  have each : ∀ index, ((readFrom index a).map Prod.fst).map Line.plain =
      ((readFrom index b).map Prod.fst).map Line.plain := by
    induction alike with
    | nil => exact fun index => rfl
    | cons head _ ih =>
        intro index
        simp only [readFrom, List.map_cons, ih, Line.read_plain head.trim_capitals]
  have lines := congrArg List.toArray (each 0)
  simpa only [plain, ofLines, read, List.map_toArray] using lines

/-- Two chunks that differ at most in their text and in the case of names. -/
structure Chunk.Matches (c d : Chunk) : Prop where
  id : c.id = d.id
  start : c.start = d.start
  stop : c.stop = d.stop
  kind : c.kind = d.kind
  complexity : c.complexity = d.complexity
  title : c.title = d.title
  operations : c.operations = d.operations
  control : c.control = d.control
  business : c.business = d.business
  dependencies : c.dependencies = d.dependencies
  part : c.part = d.part
  continuesFrom : c.continuesFrom = d.continuesFrom
  continuesIn : c.continuesIn = d.continuesIn
  declared : c.declared.map Text.capitals = d.declared.map Text.capitals
  used : c.used.map Text.capitals = d.used.map Text.capitals
  tables : c.tables.map Text.capitals = d.tables.map Text.capitals

theorem Chunk.matches_of_plain {c d : Chunk} (same : c.plain = d.plain) : c.Matches d := by
  simp only [plain, Chunk.mk.injEq, true_and] at same
  obtain ⟨id, title, start, stop, kind, complexity, operations, declared, used, tables, control,
    business, dependencies, part, continuesFrom, continuesIn⟩ := same
  exact ⟨id, start, stop, kind, complexity, title, operations, control, business, dependencies, part,
    continuesFrom, continuesIn, declared, used, tables⟩

/-- Chunking does not depend on letter case and indentation: scripts whose lines differ pairwise in
the case of ASCII letters and in surrounding blanks have chunks that match one by one, and one of
them has a plan exactly when the other has. -/
theorem chunkLines_alike {a b : List Text} (alike : List.Forall₂ Text.Alike a b) (z : Sizing) :
    List.Forall₂ Chunk.Matches (chunkLines a z) (chunkLines b z) ∧
      (Script.ofLines a).hasPlan = (Script.ofLines b).hasPlan := by
  have same := Script.ofLines_plain alike
  constructor
  · have chunks : (chunkLines a z).map Chunk.plain = (chunkLines b z).map Chunk.plain := by
      rw [chunkLines, chunkLines, ← Script.chunks_plain, same, Script.chunks_plain]
    rw [← List.forall₂_eq_eq_eq, List.forall₂_map_left_iff, List.forall₂_map_right_iff] at chunks
    exact chunks.imp fun _ _ => Chunk.matches_of_plain
  · rw [← Script.plain_hasPlan, same, Script.plain_hasPlan]

theorem chunkLines_alike_branch :
    List.Forall₂ Text.Alike ["declare @id int", "if @id = 1 select * from Orders"]
        ["  DECLARE @Id INT", "IF @ID = 1 SELECT * FROM orders\t"] ∧
      List.Forall₂ Chunk.Matches
        (chunkLines ["declare @id int", "if @id = 1 select * from Orders"] .default)
        (chunkLines ["  DECLARE @Id INT", "IF @ID = 1 SELECT * FROM orders\t"] .default) := by
  have alike : List.Forall₂ Text.Alike ["declare @id int", "if @id = 1 select * from Orders"]
      ["  DECLARE @Id INT", "IF @ID = 1 SELECT * FROM orders\t"] := by
    refine .cons ⟨"declare @id int", "DECLARE @Id INT", ⟨[], [], ?_⟩, ⟨[' ', ' '], [], ?_⟩, ?_⟩
      (.cons ⟨"if @id = 1 select * from Orders", "IF @ID = 1 SELECT * FROM orders", ⟨[], [], ?_⟩,
        ⟨[], ['\t'], ?_⟩, ?_⟩ .nil) <;> decide +kernel
  exact ⟨alike, (chunkLines_alike alike .default).1⟩

end ScriptAtlas
