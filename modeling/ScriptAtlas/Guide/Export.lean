import ScriptAtlas.Chunk.Coverage
import ScriptAtlas.Chunk.Sizing
import ScriptAtlas.Json.Reader
import ScriptAtlas.Json.Writer

/-!
The export of a chunk sequence as a JSON document, and its reader. The reader matches names in any
case and ignores those it does not know; a later member of the same name is read over the earlier
one, and `null` leaves what is there. A list that is absent differs from an empty one.
-/

namespace ScriptAtlas

structure ExportPart where
  parentType : Text := []
  parentStart : Int := 0
  parentEnd : Int := 0
  index : Int := 0
  total : Int := 0
  reason : Text := []
  deriving DecidableEq, Repr

structure ExportChunk where
  id : Int := 0
  title : Text := []
  lines : Option (List Text) := none
  start : Int := 0
  stop : Int := 0
  kind : Text := []
  complexity : Int := 0
  operations : Option (List Text) := none
  declared : Option (List Text) := none
  used : Option (List Text) := none
  tables : Option (List Text) := none
  control : Option (List Text) := none
  dependencies : Option (List Int) := none
  summary : Text := []
  business : Option (List Text) := none
  part : Option ExportPart := none
  continuesFrom : Int := 0
  continuesIn : Int := 0
  deriving DecidableEq, Repr

structure ExportSizing where
  target : Int := 0
  min : Int := 0
  max : Int := 0
  force : Int := 0
  complexity : Int := 0
  depth : Int := 0
  deriving DecidableEq, Repr

structure Export where
  strategy : Text := []
  sizing : ExportSizing := {}
  chunks : Option (List ExportChunk) := none
  deriving DecidableEq, Repr

namespace Export

/-! ### Writing -/

def ofPart (p : Part) : ExportPart where
  parentType := p.parentKind.name
  parentStart := p.parentStart
  parentEnd := p.parentEnd
  index := p.ordinal
  total := p.total
  reason := p.reason

def ofChunk (c : Chunk) : ExportChunk where
  id := c.id
  title := c.title
  lines := some (Text.splitAt 0x0A c.content)
  start := c.start
  stop := c.stop
  kind := c.kind.name
  complexity := c.complexity
  operations := some c.operations
  declared := some c.declared
  used := some c.used
  tables := some c.tables
  control := some c.control
  dependencies := some c.dependencies
  summary := c.summary
  business := some c.business
  part := c.part.map ofPart
  continuesFrom := c.continuesFrom
  continuesIn := c.continuesIn

def ofChunks (chunks : List Chunk) (z : Sizing) : Export where
  strategy := z.strategy.name
  sizing := ⟨z.target, z.min, z.max, z.force, z.complexity, z.depth⟩
  chunks := some (chunks.map ofChunk)

def nullable {α : Type} (write : List α → Json) : Option (List α) → Json
  | some items => write items
  | none => .null

def partJson (p : ExportPart) : Json :=
  .record [("parent_block_type", .string p.parentType), ("parent_block_start", .ofInt p.parentStart),
    ("parent_block_end", .ofInt p.parentEnd), ("sub_chunk_index", .ofInt p.index),
    ("total_sub_chunks", .ofInt p.total), ("subdivision_reason", .string p.reason)]

/-- A member that is left out when it is zero. -/
def nonzero (name : Text) (n : Int) : List (Text × Json) :=
  if n == 0 then [] else [(name, .ofInt n)]

def chunkJson (c : ExportChunk) : Json :=
  .object (Json.fields [("chunk_id", .ofInt c.id), ("title", .string c.title),
    ("lines", nullable .ofTexts c.lines), ("start_line", .ofInt c.start), ("end_line", .ofInt c.stop),
    ("chunk_type", .string c.kind), ("complexity_score", .ofInt c.complexity),
    ("sql_operations", nullable .ofTexts c.operations),
    ("variables_declared", nullable .ofTexts c.declared),
    ("variables_used", nullable .ofTexts c.used), ("tables_accessed", nullable .ofTexts c.tables),
    ("control_structures", nullable .ofTexts c.control),
    ("dependencies", nullable .ofInts c.dependencies), ("context_summary", .string c.summary),
    ("business_functions", nullable .ofTexts c.business)] ++
    (c.part.map fun p => (("sub_chunk_info" : Text), partJson p)).toList ++
    nonzero "continuation_from" c.continuesFrom ++ nonzero "continuation_to" c.continuesIn)

def toJson (e : Export) : Json :=
  .record [("strategy", .string e.strategy),
    ("config", .record [("target_chunk_size", .ofInt e.sizing.target),
      ("min_chunk_size", .ofInt e.sizing.min), ("max_chunk_size", .ofInt e.sizing.max),
      ("force_subdivision_threshold", .ofInt e.sizing.force),
      ("max_complexity", .ofInt e.sizing.complexity),
      ("max_recursion_depth", .ofInt e.sizing.depth)]),
    ("chunks", nullable (fun chunks => .array (chunks.map chunkJson)) e.chunks)]

def render (chunks : List Chunk) (z : Sizing) : Text :=
  (ofChunks chunks z).toJson.indented

/-! ### Reading -/

/-- Reads a value over an earlier one; nothing is returned when it has the wrong type. -/
abbrev Over (α : Type) := α → Json → Option α

def readText : Over Text
  | _, .string t => some t
  | old, .null => some old
  | _, _ => none

def readInt : Over Int
  | _, .number literal => Json.intOfLiteral literal
  | old, .null => some old
  | _, _ => none

/-- Items are read over the earlier items at their positions. -/
def readItemsOver {α : Type} (zero : α) (item : Over α) : List α → List Json → Option (List α)
  | _, [] => some []
  | [], j :: rest => do return (← item zero j) :: (← readItemsOver zero item [] rest)
  | old :: olds, j :: rest => do return (← item old j) :: (← readItemsOver zero item olds rest)

def readList {α : Type} (zero : α) (item : Over α) : Over (Option (List α))
  | old, .array items => (readItemsOver zero item (old.getD []) items).map some
  | _, .null => some none
  | _, _ => none

def readObject {α : Type} (member : Text → Option (Over α)) : Over α
  | old, .object members =>
    members.foldlM (fun value (name, j) =>
      match member name with
      | some read => read value j
      | none => some value) old
  | old, .null => some old
  | _, _ => none

def field {α β : Type} (get : α → β) (set : α → β → α) (read : Over β) : Over α :=
  fun value j => (read (get value) j).map (set value)

/-- The entry of a table of fields that a name stands for: the same name, or one that differs by case.
-/
def lookup {α : Type} (fields : List (Text × Over α)) (name : Text) : Option (Over α) :=
  match fields.find? fun (known, _) => known == name with
  | some (_, read) => some read
  | none => (fields.find? fun (known, _) => Text.sameName known name).map Prod.snd

def partFields : List (Text × Over ExportPart) := [
  ("parent_block_type", field ExportPart.parentType (fun p v => { p with parentType := v }) readText),
  ("parent_block_start", field ExportPart.parentStart (fun p v => { p with parentStart := v }) readInt),
  ("parent_block_end", field ExportPart.parentEnd (fun p v => { p with parentEnd := v }) readInt),
  ("sub_chunk_index", field ExportPart.index (fun p v => { p with index := v }) readInt),
  ("total_sub_chunks", field ExportPart.total (fun p v => { p with total := v }) readInt),
  ("subdivision_reason", field ExportPart.reason (fun p v => { p with reason := v }) readText)]

def readPart : Over (Option ExportPart)
  | _, .null => some none
  | old, j => (readObject (lookup partFields) (old.getD {}) j).map some

def readTexts : Over (Option (List Text)) :=
  readList [] readText

def chunkFields : List (Text × Over ExportChunk) := [
  ("chunk_id", field ExportChunk.id (fun c v => { c with id := v }) readInt),
  ("title", field ExportChunk.title (fun c v => { c with title := v }) readText),
  ("lines", field ExportChunk.lines (fun c v => { c with lines := v }) readTexts),
  ("start_line", field ExportChunk.start (fun c v => { c with start := v }) readInt),
  ("end_line", field ExportChunk.stop (fun c v => { c with stop := v }) readInt),
  ("chunk_type", field ExportChunk.kind (fun c v => { c with kind := v }) readText),
  ("complexity_score", field ExportChunk.complexity (fun c v => { c with complexity := v }) readInt),
  ("sql_operations", field ExportChunk.operations (fun c v => { c with operations := v }) readTexts),
  ("variables_declared", field ExportChunk.declared (fun c v => { c with declared := v }) readTexts),
  ("variables_used", field ExportChunk.used (fun c v => { c with used := v }) readTexts),
  ("tables_accessed", field ExportChunk.tables (fun c v => { c with tables := v }) readTexts),
  ("control_structures", field ExportChunk.control (fun c v => { c with control := v }) readTexts),
  ("dependencies",
    field ExportChunk.dependencies (fun c v => { c with dependencies := v }) (readList 0 readInt)),
  ("context_summary", field ExportChunk.summary (fun c v => { c with summary := v }) readText),
  ("business_functions", field ExportChunk.business (fun c v => { c with business := v }) readTexts),
  ("sub_chunk_info", field ExportChunk.part (fun c v => { c with part := v }) readPart),
  ("continuation_from",
    field ExportChunk.continuesFrom (fun c v => { c with continuesFrom := v }) readInt),
  ("continuation_to", field ExportChunk.continuesIn (fun c v => { c with continuesIn := v }) readInt)]

def sizingFields : List (Text × Over ExportSizing) := [
  ("target_chunk_size", field ExportSizing.target (fun z v => { z with target := v }) readInt),
  ("min_chunk_size", field ExportSizing.min (fun z v => { z with min := v }) readInt),
  ("max_chunk_size", field ExportSizing.max (fun z v => { z with max := v }) readInt),
  ("force_subdivision_threshold", field ExportSizing.force (fun z v => { z with force := v }) readInt),
  ("max_complexity", field ExportSizing.complexity (fun z v => { z with complexity := v }) readInt),
  ("max_recursion_depth", field ExportSizing.depth (fun z v => { z with depth := v }) readInt)]

def exportFields : List (Text × Over Export) := [
  ("strategy", field Export.strategy (fun e v => { e with strategy := v }) readText),
  ("config", field Export.sizing (fun e v => { e with sizing := v }) (readObject (lookup sizingFields))),
  ("chunks", field Export.chunks (fun e v => { e with chunks := v })
    (readList {} (readObject (lookup chunkFields))))]

def parse? (t : Text) : Option Export :=
  (Json.parse? t).bind (readObject (lookup exportFields) {})

def ranges (e : Export) : List LineRange :=
  (e.chunks.getD []).map fun c => ⟨c.start, c.stop⟩

end Export

end ScriptAtlas
