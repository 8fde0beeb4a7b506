import ScriptAtlas.Chunk.Basic
import ScriptAtlas.Store.Error
import ScriptAtlas.Store.FullText
import ScriptAtlas.Store.ListColumn
import ScriptAtlas.Store.Schema
import ScriptAtlas.Store.Wildcard

/-!
The tables of the index: projects, their scripts, the chunks of scripts and the dependencies of
chunks. Keys are handed out in ascending order and never again. Each statement either changes the
tables as a whole or leaves them as they are. When a row was made or changed is not recorded.
-/

namespace ScriptAtlas

structure ProjectRow where
  id : Int
  root : Text
  scripts : Int := 0
  chunks : Int := 0
  version : Text := []
  deriving DecidableEq, Repr

structure ScriptFacts where
  hash : Digest
  size : Int
  lines : Int
  strategy : Text
  analysis : Text
  deriving DecidableEq, Repr

structure ScriptRow where
  id : Int
  project : Int
  path : Text
  facts : ScriptFacts
  deriving DecidableEq, Repr

/-- A chunk of a script. Lists of texts are one column each, and the columns of the block that a chunk was cut
from are null where it was cut from none. The dependencies have their own table. -/
structure ChunkRow where
  id : Int
  script : Int
  number : Int
  title : Text
  kind : Text
  start : Int
  stop : Int
  complexity : Int
  content : Text
  hash : Text
  tokens : Int
  summary : Option Text
  operations : Text
  declared : Text
  used : Text
  tables : Text
  control : Text
  business : Text
  parentKind : Option Text
  parentStart : Option Int
  parentEnd : Option Int
  ordinal : Option Int
  total : Option Int
  reason : Option Text
  continuesFrom : Int
  continuesIn : Int
  deriving DecidableEq, Repr

/-- A chunk, by its key, relies on an earlier one, by its number in the script. -/
structure DependencyRow where
  chunk : Int
  on : Int
  deriving DecidableEq, Repr

structure StoredChunk where
  row : Int
  script : Int
  chunk : Chunk
  deriving DecidableEq, Repr

structure Tables where
  projects : List ProjectRow := []
  scripts : List ScriptRow := []
  chunks : List ChunkRow := []
  dependencies : List DependencyRow := []
  /-- The last keys that were handed out. -/
  lastProject : Int := 0
  lastScript : Int := 0
  lastChunk : Int := 0
  deriving DecidableEq, Repr

namespace ChunkRow

def ofChunk (id script : Int) (c : Chunk) : ChunkRow where
  id := id
  script := script
  number := c.id
  title := c.title
  kind := c.kind.name
  start := c.start
  stop := c.stop
  complexity := c.complexity
  content := c.content
  hash := c.hash.bytes
  tokens := c.tokens
  summary := some c.summary
  operations := ListColumn.encode c.operations
  declared := ListColumn.encode c.declared
  used := ListColumn.encode c.used
  tables := ListColumn.encode c.tables
  control := ListColumn.encode c.control
  business := ListColumn.encode c.business
  parentKind := c.part.map fun p => p.parentKind.name
  parentStart := c.part.map Part.parentStart
  parentEnd := c.part.map Part.parentEnd
  ordinal := c.part.map Part.ordinal
  total := c.part.map Part.total
  reason := c.part.map Part.reason
  continuesFrom := c.continuesFrom
  continuesIn := c.continuesIn

/-- The block that a chunk was cut from; the kind of the block tells whether there is one. -/
def part? (r : ChunkRow) : Option Part :=
  r.parentKind.map fun kind =>
    { parentKind := .ofName kind
      parentStart := r.parentStart.getD 0
      parentEnd := r.parentEnd.getD 0
      ordinal := r.ordinal.getD 0
      total := r.total.getD 0
      reason := r.reason.getD [] }

def scan? (r : ChunkRow) : Option Chunk := do
  return {
    id := r.number, title := r.title, start := r.start, stop := r.stop, content := r.content
    hash := .ofBytes r.hash, tokens := r.tokens, kind := .ofName r.kind, complexity := r.complexity
    summary := r.summary.getD []
    operations := ← ListColumn.decode? r.operations
    declared := ← ListColumn.decode? r.declared
    used := ← ListColumn.decode? r.used
    tables := ← ListColumn.decode? r.tables
    control := ← ListColumn.decode? r.control
    business := ← ListColumn.decode? r.business
    part := r.part?, continuesFrom := r.continuesFrom, continuesIn := r.continuesIn }

def document (r : ChunkRow) : Document where
  id := r.id
  columns := [FullText.tokens r.content, FullText.tokens r.title, FullText.tokens r.tables]

end ChunkRow

def DependencyRow.before (a b : DependencyRow) : Bool :=
  decide (a.chunk < b.chunk) || decide (a.chunk = b.chunk) && decide (a.on ≤ b.on)

def StoredChunk.relying (c : StoredChunk) (on : List Int) : StoredChunk :=
  { c with chunk.dependencies := c.chunk.dependencies ++ on }

/-- A chunk with one more dependency, if it is the one that relies on it. -/
def StoredChunk.rely (c : StoredChunk) (d : DependencyRow) : StoredChunk :=
  if c.row == d.chunk then c.relying [d.on] else c

/-- A result of an action that may change the tables, also when it fails. -/
abbrev Changed (α : Type) := Except StoreError α × Tables

namespace Tables

/-! ### Projects -/

def project? (t : Tables) (id : Int) : Option ProjectRow :=
  t.projects.find? fun p => p.id == id

def projectAt? (t : Tables) (root : Text) : Option ProjectRow :=
  t.projects.find? fun p => p.root == root

def createProject (t : Tables) (root version : Text) : Changed ProjectRow :=
  -- A root that is known takes a key all the same.
  let id := t.lastProject + 1
  let t := { t with lastProject := id }
  match t.projectAt? root with
  | some _ => (.error (.projectExists root), t)
  | none =>
    let row : ProjectRow := { id := id, root := root, version := version }
    (.ok row, { t with projects := t.projects ++ [row] })

def getProject (t : Tables) (root : Text) : Except StoreError ProjectRow :=
  match t.projectAt? root with
  | some p => .ok p
  | none => .error .notFound

def updateProject (t : Tables) (id scripts chunks : Int) (version : Text) : Changed Unit :=
  match t.project? id with
  | none => (.error (.projectMissing id), t)
  | some _ =>
    let update (p : ProjectRow) : ProjectRow :=
      if p.id == id then { p with scripts := scripts, chunks := chunks, version := version } else p
    (.ok (), { t with projects := t.projects.map update })

/-! ### Scripts -/

def script? (t : Tables) (id : Int) : Option ScriptRow :=
  t.scripts.find? fun s => s.id == id

def scriptAt? (t : Tables) (project : Int) (path : Text) : Option ScriptRow :=
  t.scripts.find? fun s => s.project == project && s.path == path

/-- Adds a script, or replaces what is recorded of the one at its path. -/
def upsertScript (t : Tables) (project : Int) (path : Text) (facts : ScriptFacts) :
    Changed ScriptRow :=
  let id := t.lastScript + 1
  match t.scriptAt? project path with
  -- The script keeps its key, and the new one is used up.
  | some old =>
    let row : ScriptRow := { old with facts := facts }
    let update (s : ScriptRow) : ScriptRow := if s.id == old.id then row else s
    (.ok row, { t with scripts := t.scripts.map update, lastScript := id })
  | none =>
    match t.project? project with
    | none => (.error (.constraint .upsertScript), t)
    | some _ =>
      let row : ScriptRow := ⟨id, project, path, facts⟩
      (.ok row, { t with scripts := t.scripts ++ [row], lastScript := id })

def getScript (t : Tables) (project : Int) (path : Text) : Except StoreError ScriptRow :=
  match t.scriptAt? project path with
  | some s => .ok s
  | none => .error .notFound

def getScriptById (t : Tables) (id : Int) : Except StoreError ScriptRow :=
  match t.script? id with
  | some s => .ok s
  | none => .error .notFound

def listScripts (t : Tables) (project : Int) : List ScriptRow :=
  (t.scripts.filter fun s => s.project == project).mergeSort fun a b => !Text.before b.path a.path

def removeChunks (t : Tables) (drop : ChunkRow → Bool) : Tables :=
  let gone := (t.chunks.filter drop).map ChunkRow.id
  { t with
    chunks := t.chunks.filter fun c => !drop c
    dependencies := t.dependencies.filter fun d => !gone.elem d.chunk }

def deleteScript (t : Tables) (id : Int) : Tables :=
  let t := t.removeChunks fun c => c.script == id
  { t with scripts := t.scripts.filter fun s => s.id != id }

/-! ### Chunks -/

def insertDependencies (row number : Int) : List Int → Tables → Changed Unit
  | [], t => (.ok (), t)
  | on :: rest, t =>
    let d : DependencyRow := ⟨row, on⟩
    if t.dependencies.elem d then (.error (.constraint (.insertDependency number)), t)
    else insertDependencies row number rest { t with dependencies := t.dependencies ++ [d] }

def insertChunk (t : Tables) (script : Int) (c : Chunk) : Changed Int :=
  let id := t.lastChunk + 1
  if (t.script? script).isNone ||
      t.chunks.any fun r => r.script == script && r.number == c.id
  then (.error (.constraint (.insertChunk c.id)), t)
  else
    (.ok id, { t with chunks := t.chunks ++ [ChunkRow.ofChunk id script c], lastChunk := id })

/-- Adds chunks with their dependencies until one fails. -/
def insertChunks (script : Int) : List Chunk → Tables → Changed (List Int)
  | [], t => (.ok [], t)
  | c :: rest, t =>
    match t.insertChunk script c with
    | (.error e, t) => (.error e, t)
    | (.ok id, t) =>
      match insertDependencies id c.id c.dependencies t with
      | (.error e, t) => (.error e, t)
      | (.ok (), t) =>
        match insertChunks script rest t with
        | (.error e, t) => (.error e, t)
        | (.ok ids, t) => (.ok (id :: ids), t)

def swapChunks (t : Tables) (script : Int) (chunks : List Chunk) : Changed (List Int) :=
  insertChunks script chunks (t.removeChunks fun c => c.script == script)

/-- Replaces the chunks of a script, all or nothing. -/
def replaceChunks (t : Tables) (script : Int) (chunks : List Chunk) : Changed (List Int) :=
  match t.swapChunks script chunks with
  | (.ok ids, t') => (.ok ids, t')
  | (.error e, _) => (.error e, t)

def scanRow (r : ChunkRow) : Except StoreError StoredChunk :=
  match r.scan? with
  | some chunk => .ok ⟨r.id, r.script, chunk⟩
  | none => .error (.unreadableColumn r.id)

def dependenciesOf (t : Tables) (row : Int) : List Int :=
  ((t.dependencies.filter fun d => d.chunk == row).map DependencyRow.on).mergeSort
    fun a b => decide (a ≤ b)

def getChunk (t : Tables) (row : Int) : Except StoreError StoredChunk :=
  match t.chunks.find? fun c => c.id == row with
  | some r => (scanRow r).map fun c => c.relying (t.dependenciesOf row)
  | none => .error .notFound

/-- The dependencies of all chunks of a script: the table of dependencies, joined with that of chunks. -/
def dependenciesIn (t : Tables) (script : Int) : List DependencyRow :=
  (t.dependencies.flatMap fun d =>
    (t.chunks.filter fun c => c.id == d.chunk && c.script == script).map fun _ => d).mergeSort
      DependencyRow.before

def listChunks (t : Tables) (script : Int) : Except StoreError (List StoredChunk) := do
  let rows := (t.chunks.filter fun c => c.script == script).mergeSort
    fun a b => decide (a.number ≤ b.number)
  let chunks ← rows.mapM scanRow
  return (t.dependenciesIn script).foldl (fun chunks d => chunks.map (·.rely d)) chunks

/-! ### Search -/

structure Filters where
  /-- Kinds of chunks, by name; none means all. -/
  kinds : List Text := []
  table : Text := []
  minComplexity : Int := 0
  files : Text := []
  minRelevance : Float := 0.0

/-- Case of ASCII letters does not count. -/
def sameTable (a b : Text) : Bool :=
  a.map Text.lowerByte == b.map Text.lowerByte

def Filters.admit (f : Filters) (s : ScriptRow) (r : ChunkRow) : Bool :=
  (f.kinds.isEmpty || f.kinds.elem r.kind) &&
  (f.table.isEmpty || ((ListColumn.decode? r.tables).getD []).any (sameTable f.table)) &&
  (decide (f.minComplexity ≤ 0) || decide (f.minComplexity ≤ r.complexity)) &&
  (f.files.isEmpty || Wildcard.matchesPath f.files s.path)

def isCandidate (t : Tables) (project : Int) (f : Filters) (row : Int) : Bool :=
  match t.chunks.find? fun c => c.id == row with
  | none => false
  | some r =>
    match t.script? r.script with
    | none => false
    | some s => s.project == project && f.admit s r

structure TextHit where
  row : Int
  score : Float

/-- The best matches first; equal ones by key. -/
def rankOrder (a b : Int × Float) : Bool :=
  a.2 < b.2 || (a.2 == b.2 && decide (a.1 ≤ b.1))

/-- The first so many; a negative number means all. -/
def limited {α : Type} (limit : Int) (xs : List α) : List α :=
  if limit < 0 then xs else xs.take limit.toNat

def searchText (t : Tables) (project : Int) (query : Text) (limit : Int) (f : Filters) :
    Except StoreError (List TextHit) :=
  if (Query.expression query).isEmpty then .error .emptyQuery
  else
    let found := FullText.search (t.chunks.map ChunkRow.document) query
    let found := (found.filter fun (row, _) => t.isCandidate project f row).mergeSort rankOrder
    let hits := (limited limit found).map fun (row, rank) => TextHit.mk row (FullText.relevance rank)
    -- Weak matches are dropped after the limit has been counted.
    .ok (hits.filter fun hit => !(f.minRelevance > 0.0 && hit.score < f.minRelevance))

/-! ### Status -/

structure Status where
  project : ProjectRow
  scripts : Nat
  chunks : Nat
  parts : Nat
  complexity : Int
  kinds : List (Text × Nat)
  accessible : Bool := true
  fullText : Bool := true
  schema : Version := Migration.current
  deriving DecidableEq, Repr

def projectChunks (t : Tables) (project : Int) : List ChunkRow :=
  t.chunks.filter fun c => ((t.script? c.script).map ScriptRow.project) == some project

def countKinds (chunks : List ChunkRow) : List (Text × Nat) :=
  let names := chunks.map ChunkRow.kind
  (Text.sort names.eraseDups).map fun name => (name, names.count name)

def status (t : Tables) (project : Int) : Except StoreError Status :=
  match t.project? project with
  | none => .error .notFound
  | some row =>
    let chunks := t.projectChunks project
    .ok {
      project := row
      scripts := t.scripts.countP fun s => s.project == project
      chunks := chunks.length
      parts := chunks.countP fun c => c.total.isSome
      complexity := chunks.foldr (fun c sum => c.complexity + sum) 0
      kinds := countKinds chunks }

end Tables

end ScriptAtlas
