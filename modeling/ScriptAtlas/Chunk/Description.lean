import ScriptAtlas.Chunk.Basic
import ScriptAtlas.Text.Case

/-!
Titles and summaries of chunks.
-/

namespace ScriptAtlas

namespace ChunkKind

def title : ChunkKind → Text
  | declaration => "Variable & Parameter Declarations"
  | transaction => "Transaction Management"
  | errorHandling => "Error Handling & Recovery"
  | loop => "Loop Processing"
  | conditional => "Conditional Logic & Branching"
  | cursor => "Cursor Operations"
  | dynamicSql => "Dynamic SQL Execution"
  | modification => "Data Modification"
  | retrieval => "Data Retrieval"
  | calculation => "Calculations & Computations"
  | validation => "Validation Logic"
  | general | unknown _ _ => "General Logic"

end ChunkKind

/-- Lower-cased words with a capital first byte, for a name in capitals with underscores. -/
def humanize (name : Text) : Text :=
  Text.join " " ((Text.splitAt 0x5F name.lower).map fun
    | [] => []
    | b :: rest => Text.upper [b] ++ rest)

/-- Operations without calls and function families. -/
def baseOperations (operations : List Text) : List Text :=
  operations.filter fun tag => !tag.elem 0x3A

namespace Chunk

/-- What a title stresses: business functions, else operations, else control keywords. -/
def focus (c : Chunk) : List Text :=
  if !c.business.isEmpty then (c.business.take 2).map humanize
  else if !(baseOperations c.operations).isEmpty then (baseOperations c.operations).take 2
  else c.control.take 2

def titleOf (c : Chunk) : Text :=
  c.kind.title ++
  (if c.focus.isEmpty then [] else (" - " : Text) ++ Text.join ", " c.focus) ++
  match c.part with
  | some p => (" (Part " : Text) ++ Text.ofInt p.ordinal ++ "/" ++ Text.ofInt p.total ++ ")"
  | none => []

def sentence (before : String) (items : List Text) (after : String) : List Text :=
  if items.isEmpty then [] else [before ++ Text.join ", " items ++ after]

def sentences (c : Chunk) : List Text :=
  sentence "Handles " (c.business.map fun f => (humanize f).lower) "." ++
  sentence "Performs " (baseOperations c.operations) " operations." ++
  sentence "Uses " c.control " logic." ++
  sentence "Touches " c.tables "." ++
  sentence "Follows chunks " (c.dependencies.map Text.ofInt) "." ++
  (match c.part with
    | some p =>
      ["Part " ++ Text.ofInt p.ordinal ++ " of " ++ Text.ofInt p.total ++ " of the " ++
        p.parentKind.name.replace "_" " " ++ " block at lines " ++ Text.ofInt p.parentStart ++ "-" ++
        Text.ofInt p.parentEnd ++ "."]
    | none => []) ++
  (if 0 < c.continuesFrom then ["Continues from chunk " ++ Text.ofInt c.continuesFrom ++ "."]
    else []) ++
  (if 0 < c.continuesIn then ["Continues in chunk " ++ Text.ofInt c.continuesIn ++ "."] else [])

def summaryOf (c : Chunk) : Text :=
  if c.sentences.isEmpty then "Comments and formatting only." else Text.join " " c.sentences

def described (c : Chunk) : Chunk :=
  { c with title := c.titleOf, summary := c.summaryOf }

end Chunk

end ScriptAtlas
