import ScriptAtlas.Chunk.Coverage
import ScriptAtlas.Chunk.Sequence
import ScriptAtlas.Files.Discovery
import ScriptAtlas.Index.Lock
import ScriptAtlas.Store.Basic

/-!
Indexing a directory: scripts are discovered and chunked, the chunks of new and changed scripts are
stored in batches, and scripts that disappeared are removed. A script whose content and strategy are
those of the stored chunks is skipped. A script that fails keeps what is stored of it. Scripts are worked
on one after the other; neither progress nor times are told.
-/

namespace ScriptAtlas

structure IndexPlan where
  sizing : Sizing := {}
  included : List Text := []
  /-- Without ignore patterns the default ones count. -/
  ignored : Option (List Text) := none
  /-- Scripts stored per transaction; the default counts if it is not positive. -/
  batch : Int := 0
  force : Bool := false
  deriving DecidableEq, Repr

inductive IndexOutcome where
  | indexed
  | skipped
  | failed
  deriving DecidableEq, Repr

def IndexOutcome.name : IndexOutcome → Text
  | indexed => "indexed"
  | skipped => "skipped"
  | failed => "failed"

inductive ScriptError where
  | file (e : FileError)
  | notCovered (gaps overlaps : Nat)
  deriving DecidableEq, Repr

def ScriptError.message : ScriptError → Text
  | file e => e.message
  | notCovered gaps overlaps =>
    "chunks do not cover the script: " ++ Text.ofNat gaps ++ " gaps, " ++ Text.ofNat overlaps ++
      " overlaps"

inductive ScriptWork where
  | skipped
  | failed (e : ScriptError)
  | chunked (facts : ScriptFacts) (chunks : List Chunk)
  deriving DecidableEq, Repr

def ScriptWork.outcome : ScriptWork → IndexOutcome
  | skipped => .skipped
  | failed _ => .failed
  | chunked _ _ => .indexed

structure IndexStatistics where
  found : Nat := 0
  indexed : Nat := 0
  skipped : Nat := 0
  failed : Nat := 0
  removed : Nat := 0
  chunks : Nat := 0
  parts : Nat := 0
  errors : List Text := []
  deriving DecidableEq, Repr

structure IndexReport where
  statistics : IndexStatistics
  processed : List (Text × IndexOutcome)
  deriving DecidableEq, Repr

inductive IndexStage where
  | project
  | existing
  | begin
  | upsert
  | chunks (path : Text)
  | removal (path : Text)
  | counts
  deriving DecidableEq, Repr

def IndexStage.label : IndexStage → Text
  | project => "failed to get or create project: "
  | existing => "failed to list indexed scripts: "
  | begin => "failed to begin transaction: "
  | upsert => []
  | chunks path => "failed to store chunks of " ++ path ++ ": "
  | removal path => "failed to remove " ++ path ++ ": "
  | counts => "failed to update project stats: "

inductive IndexError where
  | inProgress
  | sizing (e : SizingError)
  | pattern (e : PatternError)
  | root (e : FileError)
  | notDirectory (path : Text)
  | discovery (e : FileError)
  | store (stage : IndexStage) (e : StoreError)
  deriving DecidableEq, Repr

def IndexError.message : IndexError → Text
  | inProgress => "indexing already in progress"
  | sizing e => e.message
  | pattern e => e.message
  | root e => e.message
  | notDirectory path => path ++ " is not a directory"
  | discovery e => "failed to discover scripts: " ++ e.message
  | store stage e => stage.label ++ e.message

namespace Index

def defaultBatch : Nat := 20

def batchSize (p : IndexPlan) : Nat :=
  if p.batch ≤ 0 then defaultBatch else p.batch.toNat

/-- A list in pieces of `more + 1` elements. -/
def batches {α : Type} (more : Nat) : List α → List (List α)
  | [] => []
  | x :: xs => (x :: xs.take more) :: batches more (xs.drop more)
termination_by xs => xs.length
decreasing_by
  simp only [List.length_drop, List.length_cons]
  omega

/-- Reads a script and chunks it, unless its stored chunks are current. -/
def work (tree : FileTree) (root analysis : Text) (z : Sizing) (force : Bool)
    (existing : List ScriptRow) (path : Text) : ScriptWork :=
  let place := Path.join [root, path]
  match tree.inspect "stat" place, tree.read place with
  | .error e, _ => .failed (.file e)
  | _, .error e => .failed (.file e)
  | _, .ok content =>
    let hash := Digest.ofText content
    let stored := existing.find? fun s => s.path == path
    let isCurrent := (stored.map fun s =>
      s.facts.hash == hash && s.facts.strategy == z.strategy.name) == some true
    if !force && isCurrent then .skipped
    else
      let lines := Script.splitLines content
      let chunks := chunkContent content z
      let coverage := Coverage.ofRanges (Chunk.ranges chunks) lines.length
      if coverage.isPerfect then
        .chunked ⟨hash, content.length, lines.length, z.strategy.name, analysis⟩ chunks
      else .failed (.notCovered coverage.gaps.length coverage.overlaps.length)

def count (stats : IndexStatistics) (path : Text) : ScriptWork → IndexStatistics
  | .skipped => { stats with skipped := stats.skipped + 1 }
  | .failed e =>
    { stats with
      failed := stats.failed + 1
      errors := stats.errors ++ [path ++ ": " ++ e.message] }
  | .chunked _ chunks =>
    { stats with
      indexed := stats.indexed + 1
      chunks := stats.chunks + chunks.length
      parts := stats.parts + chunks.countP fun c => c.part.isSome }

def storeScripts (project : Int) :
    List (Text × ScriptWork) → Store → Except IndexError Unit × Store
  | [], s => (.ok (), s)
  | (path, work) :: rest, s =>
    match work with
    | .chunked facts chunks =>
      match s.upsertScript project path facts with
      | (.error e, s) => (.error (.store .upsert e), s)
      | (.ok row, s) =>
        match s.replaceChunks row.id chunks with
        | (.error e, s) => (.error (.store (.chunks path) e), s)
        | (.ok _, s) => storeScripts project rest s
    | _ => storeScripts project rest s

/-- Stores a batch in one transaction. -/
def storeBatch (project : Int) (batch : List (Text × ScriptWork)) (s : Store) :
    Except IndexError Unit × Store :=
  match s.beginTransaction with
  | (.error e, s) => (.error (.store .begin e), s)
  | (.ok (), s) =>
    match storeScripts project batch s with
    -- Batches that were stored before stay.
    | (.error e, s) => (.error e, s.rollBack)
    | (.ok (), s) => (.ok (), s.commit)

def storeBatches (project : Int) :
    List (List (Text × ScriptWork)) → Store → Except IndexError Unit × Store
  | [], s => (.ok (), s)
  | batch :: rest, s =>
    match storeBatch project batch s with
    | (.error e, s) => (.error e, s)
    | (.ok (), s) => storeBatches project rest s

def removeScripts : List ScriptRow → Store → Except IndexError Unit × Store
  | [], s => (.ok (), s)
  | row :: rest, s =>
    match s.deleteScript row.id with
    | (.error e, s) => (.error (.store (.removal row.path) e), s)
    | (.ok (), s) => removeScripts rest s

def recordCounts (project : Int) (s : Store) : Except IndexError Unit × Store :=
  match s.status project with
  | .error e => (.error (.store .counts e), s)
  | .ok status =>
    match s.updateProject project status.scripts status.chunks Migration.current.text with
    | (.error e, s) => (.error (.store .counts e), s)
    | (.ok (), s) => (.ok (), s)

def projectOf (root : Text) (s : Store) : Except IndexError ProjectRow × Store :=
  match s.getProject root with
  | .ok project => (.ok project, s)
  | .error .notFound =>
    match s.createProject root Migration.current.text with
    | (.ok project, s) => (.ok project, s)
    | (.error e, s) => (.error (.store .project e), s)
  | .error e => (.error (.store .project e), s)

def storeProject (project : Int) (p : IndexPlan) (works : List (Text × ScriptWork))
    (existing : List ScriptRow) (s : Store) : Except IndexError IndexReport × Store :=
  match storeBatches project (batches (batchSize p - 1) works) s with
  | (.error e, s) => (.error e, s)
  | (.ok (), s) =>
    let stale := existing.filter fun row => !(works.map Prod.fst).elem row.path
    match removeScripts stale s with
    | (.error e, s) => (.error e, s)
    | (.ok (), s) =>
      match recordCounts project s with
      | (.error e, s) => (.error e, s)
      | (.ok (), s) =>
        let start : IndexStatistics := { found := works.length }
        let stats := works.foldl (fun stats (path, work) => count stats path work) start
        let stats := { stats with removed := stale.length }
        (.ok ⟨stats, works.map fun (path, work) => (path, work.outcome)⟩, s)

def prepare (globs : GlobLibrary) (lock : IndexLock) (tree : FileTree) (root : Text) (p : IndexPlan) :
    Except IndexError (Sizing × PathFilter) := do
  if lock.holds root then throw .inProgress
  let z ←
    match p.sizing.resolve with
    | .ok z => pure z
    | .error e => throw (.sizing e)
  let paths ←
    match PathFilter.compile globs p.included (p.ignored.getD PathFilter.defaultIgnored) with
    | .ok f => pure f
    | .error e => throw (.pattern e)
  match tree.inspect "stat" root with
  | .error e => throw (.root e)
  | .ok node =>
    if node.isDirectory then return (z, paths) else throw (.notDirectory root)

/-- Indexes the scripts below an absolute root; `analysis` names the run. -/
def run (globs : GlobLibrary) (lock : IndexLock) (tree : FileTree) (root analysis : Text) (p : IndexPlan)
    (s : Store) : Except IndexError IndexReport × Store :=
  match prepare globs lock tree root p with
  | .error e => (.error e, s)
  | .ok (z, paths) =>
    match projectOf root s with
    | (.error e, s) => (.error e, s)
    | (.ok project, s) =>
      match paths.discover tree root with
      | .error e => (.error (.discovery e), s)
      | .ok found =>
        match s.listScripts project.id with
        | .error e => (.error (.store .existing e), s)
        | .ok existing =>
          let works := found.map fun path =>
            (path, work tree root analysis z p.force existing path)
          storeProject project.id p works existing s

end Index

end ScriptAtlas
