import ScriptAtlas.Store.Tables

/-!
The store: tables with at most one open transaction. While one is open every action runs in it, and
rolling it back restores the tables of its beginning. A closed store refuses every access.
-/

namespace ScriptAtlas

structure Store where
  tables : Tables := {}
  /-- The tables at the beginning of the open transaction. -/
  begun : Option Tables := none
  isClosed : Bool := false
  deriving DecidableEq, Repr

abbrev Stored (α : Type) := Except StoreError α × Store

namespace Store

def change {α : Type} (s : Store) (during : Option StoreAction) (f : Tables → Changed α) :
    Stored α :=
  if s.isClosed then (.error (.closed during), s)
  else
    let (result, tables) := f s.tables
    (result, { s with tables := tables })

def read {α : Type} (s : Store) (during : Option StoreAction) (f : Tables → Except StoreError α) :
    Except StoreError α :=
  if s.isClosed then .error (.closed during) else f s.tables

/-! ### Transactions -/

def beginTransaction (s : Store) : Stored Unit :=
  if s.isClosed then (.error (.closed none), s)
  else
    match s.begun with
    | some _ => (.error .nestedTransaction, s)
    | none => (.ok (), { s with begun := some s.tables })

/-- Keeps what the transaction did; there is nothing to do without one. -/
def commit (s : Store) : Store :=
  { s with begun := none }

/-- Restores the tables of the beginning; there is nothing to do without a transaction. -/
def rollBack (s : Store) : Store :=
  match s.begun with
  | none => s
  | some tables => { s with tables := tables, begun := none }

def close (s : Store) : Store :=
  { s with isClosed := true }

/-! ### Actions -/

def createProject (s : Store) (root version : Text) : Stored ProjectRow :=
  s.change (some .createProject) (·.createProject root version)

def getProject (s : Store) (root : Text) : Except StoreError ProjectRow :=
  s.read none (·.getProject root)

def updateProject (s : Store) (id scripts chunks : Int) (version : Text) : Stored Unit :=
  s.change (some .updateProject) (·.updateProject id scripts chunks version)

def upsertScript (s : Store) (project : Int) (path : Text) (facts : ScriptFacts) :
    Stored ScriptRow :=
  s.change (some .upsertScript) (·.upsertScript project path facts)

def getScript (s : Store) (project : Int) (path : Text) : Except StoreError ScriptRow :=
  s.read none (·.getScript project path)

def getScriptById (s : Store) (id : Int) : Except StoreError ScriptRow :=
  s.read none (·.getScriptById id)

def listScripts (s : Store) (project : Int) : Except StoreError (List ScriptRow) :=
  s.read none fun t => .ok (t.listScripts project)

def deleteScript (s : Store) (id : Int) : Stored Unit :=
  s.change none fun t => (.ok (), t.deleteScript id)

def replaceChunks (s : Store) (script : Int) (chunks : List Chunk) : Stored (List Int) :=
  s.change none fun t =>
    -- Alone it is all or nothing. In a transaction what was done before a failure stays until that ends.
    if s.begun.isSome then t.swapChunks script chunks else t.replaceChunks script chunks

def getChunk (s : Store) (row : Int) : Except StoreError StoredChunk :=
  s.read none (·.getChunk row)

def listChunks (s : Store) (script : Int) : Except StoreError (List StoredChunk) :=
  s.read none (·.listChunks script)

def searchText (s : Store) (project : Int) (query : Text) (limit : Int) (f : Tables.Filters) :
    Except StoreError (List Tables.TextHit) :=
  if (Query.expression query).isEmpty then .error .emptyQuery
  else s.read (some .search) (·.searchText project query limit f)

def status (s : Store) (project : Int) : Except StoreError Tables.Status :=
  s.read none (·.status project)

end Store

end ScriptAtlas
