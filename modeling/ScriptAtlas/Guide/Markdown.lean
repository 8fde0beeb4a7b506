import ScriptAtlas.Chunk.Description
import ScriptAtlas.Chunk.Graph
import ScriptAtlas.Chunk.Sizing
import ScriptAtlas.Number.Fixed

/-!
The analysis guide: statistics, the reading order, and one section for each chunk. Only the reading
order writes `Lines:` before a range, so that each chunk's range can be read off once.
-/

namespace ScriptAtlas.Guide

def distinct (ts : List Text) : List Text :=
  Text.sort ts.eraseDups

def joinIds (ids : List Int) : Text :=
  Text.join ", " (ids.map Text.ofInt)

def joinFunctions (functions : List Text) : Text :=
  Text.join ", " (functions.map humanize)

def labelled (label : String) (value : Text) : Text :=
  label ++ value ++ "\n"

def labelledList {α : Type} (label : String) (items : List α) (shown : List α → Text) : Text :=
  if items.isEmpty then [] else labelled label (shown items)

def provided (condition : Bool) (t : Text) : Text :=
  if condition then t else []

/-- The mean weight of a chunk, to one place. -/
def average (total : Int) (count : Nat) : Text :=
  if count == 0 then "0.0" else Number.fixed 1 (Float.ofInt total / Float.ofNat count)

def header (z : Sizing) : Text :=
  "# Adaptive SQL Script Analysis Guide\n\n" ++
  labelled "**Chunking Strategy**: " (humanize z.strategy.name) ++
  labelled "**Target Chunk Size**: " (Text.ofInt z.target ++ " lines") ++
  labelled "**Max Chunk Size**: " (Text.ofInt z.max ++ " lines\n")

def statistics (chunks : List Chunk) : Text :=
  let total := chunks.foldl (fun sum c => wrap64 (sum + c.complexity)) 0
  let business := distinct (chunks.flatMap Chunk.business)
  "## Script Statistics\n" ++
  labelled "- **Total Chunks**: " (Text.ofNat chunks.length) ++
  labelled "- **Subdivided Chunks**: " (Text.ofNat (chunks.countP fun c => c.part.isSome)) ++
  labelled "- **Total Complexity Score**: " (Text.ofInt total) ++
  labelled "- **Average Complexity per Chunk**: " (average total chunks.length) ++
  labelled "- **Business Functions Identified**: " (Text.ofNat business.length ++ "\n") ++
  provided (!business.isEmpty) ("**Business Functions:**\n" ++
    business.flatMap (fun f => labelled "- " (humanize f)) ++ "\n") ++
  "**Chunk Type Distribution:**\n" ++
  (ChunkKind.priority.flatMap fun kind =>
    let count := chunks.countP fun c => c.kind == kind
    provided (0 < count) (labelled "- " (humanize kind.name ++ ": " ++ Text.ofNat count))) ++ "\n"

/-- Chunks in the order of their ids, or as they are when the ids do not name all of them. -/
def inOrder (chunks : List Chunk) (ids : List Int) : List Chunk :=
  let ordered := ids.filterMap fun id => chunks.find? fun c => c.id == id
  if ordered.length == chunks.length then ordered else chunks

def orderEntry (graph : Option DependencyGraph) (position : Nat) (c : Chunk) : Text :=
  let neededBy := (graph.bind fun g => (g.dependents c.id).toOption).getD []
  Text.ofNat position ++ ". **Chunk " ++ Text.ofInt c.id ++ "**: " ++ c.title ++ "\n" ++
  labelled "   - Type: " c.kind.name ++
  labelled "   - Complexity: " (Text.ofInt c.complexity) ++
  labelled "   - Lines: " (Text.ofInt c.start ++ "-" ++ Text.ofInt c.stop) ++
  labelled "   - Context: " c.summary ++
  labelledList "   - Dependencies: Chunks " c.dependencies joinIds ++
  labelledList "   - Needed By: Chunks " neededBy joinIds ++
  labelledList "   - Business Functions: " c.business joinFunctions ++
  (match c.part with
    | some p => labelled "   - Subdivision: Part "
        (Text.ofInt p.ordinal ++ "/" ++ Text.ofInt p.total ++ " of " ++ p.parentKind.name)
    | none => []) ++
  "\n"

def orderEntries (graph : Option DependencyGraph) : Nat → List Chunk → Text
  | _, [] => []
  | position, c :: rest => orderEntry graph position c ++ orderEntries graph (position + 1) rest

/-- The reading order: by dependencies where the graph allows it, else as given. -/
def order (chunks : List Chunk) : Text :=
  let graph := (DependencyGraph.build chunks).toOption
  let ordered :=
    match graph.bind fun g => g.order.toOption with
    | some ids => inOrder chunks ids
    | none => chunks
  "## Sequential Analysis Order\nAnalyze chunks in this order:\n\n" ++ orderEntries graph 1 ordered

def maxVariables : Nat := 10

def questions : List Text := [
  "How does this chunk build upon the previous chunks?",
  "What business logic or data processing occurs here?",
  "Which variables or data from previous chunks are used?",
  "What outputs or state changes prepare for subsequent chunks?",
  "What error conditions or edge cases are handled?",
  "How does this contribute to the overall script workflow?"]

def numbered : Nat → List Text → Text
  | _, [] => []
  | n, item :: rest => Text.ofNat n ++ ". " ++ item ++ "\n" ++ numbered (n + 1) rest

def details (c : Chunk) : Text :=
  "### Chunk " ++ Text.ofInt c.id ++ ": " ++ c.title ++ "\n" ++
  labelled "**Type**: " c.kind.name ++
  labelled "**Complexity Score**: " (Text.ofInt c.complexity) ++
  labelled "**Lines**: " (Text.ofInt c.start ++ "-" ++ Text.ofInt c.stop) ++
  labelled "**Context**: " c.summary ++
  labelledList "**SQL Operations**: " c.operations (Text.join ", ") ++
  labelledList "**Control Structures**: " c.control (Text.join ", ") ++
  labelledList "**Business Functions**: " c.business joinFunctions ++
  labelledList "**Variables Declared**: " c.declared (fun names => Text.join ", " (names.take maxVariables)) ++
  provided (maxVariables < c.declared.length)
    (labelled "   (and " (Text.ofNat (c.declared.length - maxVariables) ++ " more...)")) ++
  labelledList "**Tables/Views**: " c.tables (Text.join ", ") ++
  labelledList "**Sequential Dependencies**: Chunks " c.dependencies joinIds ++
  (match c.part with
    | some p =>
      labelled "**Subdivision Info**: Part " (Text.ofInt p.ordinal ++ " of " ++ Text.ofInt p.total) ++
      labelled "**Parent Block**: " (p.parentKind.name ++ " (lines " ++ Text.ofInt p.parentStart ++
        "-" ++ Text.ofInt p.parentEnd ++ ")")
    | none => []) ++
  "\n**Code:**\n```sql\n" ++ c.content ++ "\n```\n\n" ++
  "**Analysis Questions:**\n" ++
  numbered 1 (questions ++
    if 0 < c.continuesIn then
      ["How does this chunk connect to its continuation in chunk " ++ Text.ofInt c.continuesIn ++ "?"]
    else []) ++
  "\n---\n\n"

def markdown (chunks : List Chunk) (z : Sizing) : Text :=
  header z ++ statistics chunks ++ order chunks ++ "## Detailed Sequential Analysis\n\n" ++
    chunks.flatMap details

end ScriptAtlas.Guide
