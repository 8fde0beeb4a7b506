import ScriptAtlas.Text.Basic

/-!
What can go wrong in the store.
-/

namespace ScriptAtlas

inductive StoreAction where
  | createProject
  | updateProject
  | upsertScript
  | deleteChunks
  | insertChunk (id : Int)
  | insertDependency (id : Int)
  | search
  deriving DecidableEq, Repr

def StoreAction.message : StoreAction → Text
  | createProject => "failed to create project"
  | updateProject => "failed to update project"
  | upsertScript => "failed to upsert script"
  | deleteChunks => "failed to delete chunks"
  | insertChunk id => "failed to insert chunk " ++ Text.ofInt id
  | insertDependency id => "failed to insert dependency of chunk " ++ Text.ofInt id
  | search => "failed to execute FTS search"

inductive StoreError where
  | notFound
  | projectMissing (id : Int)
  | projectExists (root : Text)
  /-- A reference to nothing, or a second row of one key. -/
  | constraint (during : StoreAction)
  | unreadableColumn (row : Int)
  | emptyQuery
  | nestedTransaction
  | closed (during : Option StoreAction)
  deriving DecidableEq, Repr

def StoreError.message : StoreError → Text
  | notFound => "not found"
  | projectMissing id => "project " ++ Text.ofInt id ++ ": not found"
  | projectExists root => "project " ++ root ++ ": already exists"
  | constraint during => during.message ++ ": constraint failed"
  | unreadableColumn row => "chunk " ++ Text.ofInt row ++ ": failed to decode list column"
  | emptyQuery => "empty search query"
  | nestedTransaction => "nested transactions are not supported"
  | closed none => "sql: database is closed"
  | closed (some during) => during.message ++ ": sql: database is closed"

end ScriptAtlas
