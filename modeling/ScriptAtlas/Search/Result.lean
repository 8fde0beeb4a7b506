import ScriptAtlas.Chunk.Basic

/-!
Search results.
-/

namespace ScriptAtlas

structure ScriptInfo where
  path : Text
  lines : Int
  deriving DecidableEq, Repr

structure SearchResult where
  row : Int
  rank : Int
  /-- Relevance from zero to one. -/
  score : Float
  script : Option ScriptInfo
  chunk : Option Chunk

inductive ResultError where
  | invalidId
  | invalidRank
  | invalidScore
  | missingScript
  | emptyContent
  deriving DecidableEq, Repr

def ResultError.message : ResultError → Text
  | invalidId => "invalid chunk ID"
  | invalidRank => "rank must be >= 1"
  | invalidScore => "relevance score must be between 0 and 1"
  | missingScript => "script info is required"
  | emptyContent => "content cannot be empty"

def SearchResult.check (r : SearchResult) : Except ResultError Unit := do
  if r.row == 0 then throw .invalidId
  if r.rank < 1 then throw .invalidRank
  if r.score < 0.0 || 1.0 < r.score then throw .invalidScore
  if r.script.isNone then throw .missingScript
  match r.chunk with
  | none => throw .emptyContent
  | some c => if c.content.isEmpty then throw .emptyContent

end ScriptAtlas
