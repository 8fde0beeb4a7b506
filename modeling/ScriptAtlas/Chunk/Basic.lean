import ScriptAtlas.Text.Digest

/-!
Chunks: contiguous, classified slices of a script that are presented as one unit.
-/

namespace ScriptAtlas

/-- The names of the taxonomy, from highest to lowest precedence. -/
def ChunkKind.taxonomy : List Text :=
  Text.ofStrings ["declaration", "transaction", "error_handling", "loop", "conditional", "cursor", "dynamic_sql",
    "modification", "retrieval", "calculation", "validation", "general"]

inductive ChunkKind where
  | declaration
  | transaction
  | errorHandling
  | loop
  | conditional
  | cursor
  | dynamicSql
  | modification
  | retrieval
  | calculation
  | validation
  | general
  | unknown (name : Text) (outside : name ∉ ChunkKind.taxonomy)
  deriving DecidableEq, Repr

namespace ChunkKind

def unnamed : ChunkKind :=
  .unknown [] (by decide)

def priority : List ChunkKind :=
  [declaration, transaction, errorHandling, loop, conditional, cursor, dynamicSql, modification,
    retrieval, calculation, validation, general]

def name : ChunkKind → Text
  | declaration => "declaration"
  | transaction => "transaction"
  | errorHandling => "error_handling"
  | loop => "loop"
  | conditional => "conditional"
  | cursor => "cursor"
  | dynamicSql => "dynamic_sql"
  | modification => "modification"
  | retrieval => "retrieval"
  | calculation => "calculation"
  | validation => "validation"
  | general => "general"
  | unknown name _ => name

def ofName (name : Text) : ChunkKind :=
  if outside : name ∉ taxonomy then unknown name outside
  else (priority.find? fun kind => kind.name == name).getD general

theorem ofName_name (kind : ChunkKind) : ofName kind.name = kind := by
  cases kind with
  | unknown name outside => exact dif_pos outside
  | _ => rfl

def isKnown (kind : ChunkKind) : Bool :=
  priority.elem kind

end ChunkKind

structure Part where
  parentKind : ChunkKind := .unnamed
  /-- First and last line of the block, from one. -/
  parentStart : Int := 0
  parentEnd : Int := 0
  /-- Position among the parts, from one. -/
  ordinal : Int := 0
  total : Int := 0
  reason : Text := []
  deriving DecidableEq, Repr

def Part.sameParent (p q : Part) : Bool :=
  p.parentStart == q.parentStart && p.parentEnd == q.parentEnd && p.parentKind == q.parentKind

structure Chunk where
  /-- Position in the sequence, from one. -/
  id : Int := 0
  title : Text := []
  /-- First and last line, from one. -/
  start : Int := 0
  stop : Int := 0
  content : Text := []
  hash : Digest := .zero
  tokens : Int := 0
  kind : ChunkKind := .unnamed
  complexity : Int := 0
  summary : Text := []
  operations : List Text := []
  declared : List Text := []
  used : List Text := []
  tables : List Text := []
  control : List Text := []
  business : List Text := []
  dependencies : List Int := []
  part : Option Part := none
  /-- The chunks that this one continues and is continued by; zero when there is none. -/
  continuesFrom : Int := 0
  continuesIn : Int := 0
  deriving DecidableEq, Repr

inductive ChunkError where
  | invalidId
  | linesNotPositive
  | startAfterEnd
  | invalidKind
  | negativeComplexity
  | forwardDependency
  | invalidPart
  deriving DecidableEq, Repr

def ChunkError.message : ChunkError → Text
  | invalidId => "invalid chunk ID"
  | linesNotPositive => "line numbers must be positive"
  | startAfterEnd => "start line must be before or equal to end line"
  | invalidKind => "invalid chunk type"
  | negativeComplexity => "complexity cannot be negative"
  | forwardDependency => "dependencies must point to earlier chunks"
  | invalidPart => "subdivision ordinal must be within 1..total"

namespace Chunk

def lineCount (c : Chunk) : Int :=
  wrap64 (c.stop - c.start + 1)

/-- An estimate of the number of tokens: a quarter of the bytes. -/
def estimate (content : Text) : Nat :=
  content.length / 4

def checkRange (c : Chunk) : Except ChunkError Unit := do
  if c.start ≤ 0 || c.stop ≤ 0 then throw .linesNotPositive
  if c.stop < c.start then throw .startAfterEnd

def check (c : Chunk) : Except ChunkError Unit := do
  if c.id ≤ 0 then throw .invalidId
  c.checkRange
  if !c.kind.isKnown then throw .invalidKind
  if c.complexity < 0 then throw .negativeComplexity
  if c.dependencies.any fun d => c.id ≤ d || d ≤ 0 then throw .forwardDependency
  match c.part with
  | some p => if p.ordinal < 1 || p.total < p.ordinal then throw .invalidPart
  | none => pure ()

end Chunk

end ScriptAtlas
