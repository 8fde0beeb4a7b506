import ScriptAtlas.Glob.Compile
import ScriptAtlas.Guide.Ranges
import ScriptAtlas.Guide.Render
import ScriptAtlas.Search.Searcher
import ScriptAtlas.Tool.Arguments
import ScriptAtlas.Tool.Error
import ScriptAtlas.Tool.Schema

/-!
Tool calls: analysing and checking scripts, indexing directories and searching them.
-/

namespace ScriptAtlas

structure ServerOptions where
  sizing : Sizing := {}
  included : List Text := []
  ignored : Option (List Text) := none

structure Server where
  options : ServerOptions := {}
  store : Store := {}
  lock : IndexLock := {}
  searcher : Searcher := {}

inductive ToolReply where
  | report (text : Text)
  | record (value : Json)

structure CallContext where
  tree : FileTree
  now : Int := 0
  analysis : Text := []

namespace Server

/-! ### Scripts and coverage -/

def sizingOf (o : ServerOptions) (args : Json) : Except ToolError Sizing := do
  let z := o.sizing
  let name := args.textOr "strategy" []
  let strategy ←
    if name.isEmpty then pure z.strategy
    else
      match Strategy.parse name with
      | .ok strategy => pure strategy
      | .error _ => throw (.invalidStrategy name)
  let z : Sizing := {
    strategy := strategy
    target := args.intOr "target_size" z.target
    min := args.intOr "min_size" z.min
    max := args.intOr "max_size" z.max
    force := args.intOr "force_threshold" z.force
    complexity := args.intOr "max_complexity" z.complexity
    depth := args.intOr "max_depth" z.depth }
  match z.resolve with
  | .ok z => return z
  | .error e => throw (.invalidSizing e)

def scriptOf (tree : FileTree) (args : Json) (z : Sizing) : Except ToolError ChunkedScript :=
  let path := args.textOr "path" []
  match path.isEmpty, args.get? "content" with
  | false, some (.string _) => .error .pathAndContent
  | true, some (.string content) => .ok (.ofContent content z)
  | true, _ => .error .noPathOrContent
  | false, _ =>
    if !Path.isAbsolute path then .error .pathNotAbsolute
    else
      match tree.at? path with
      | .error .missing => .error (.scriptMissing path)
      | .ok (.directory _) => .error .pathIsDirectory
      | _ =>
        match ChunkedScript.ofFile tree [] path z with
        | .ok script => .ok script
        | .error e => .error (.scriptUnreadable e)

def analyze (o : ServerOptions) (tree : FileTree) (args : Json) : Except ToolError Text := do
  let format ←
    match Format.parse (args.textOr "format" "json") with
    | .ok format => pure format
    | .error e => throw (.invalidFormat e)
  let z ← sizingOf o args
  let script ← scriptOf tree args z
  match Guide.render format script.chunks z with
  | .ok text => return text
  | .error e => throw (.invalidFormat e)

def documentRanges (document : Text) : Except ToolError (List LineRange) :=
  if (Text.trim document).startsWith [0x7B] then
    match Export.parse? document with
    | some e => .ok e.ranges
    | none => .error .invalidDocument
  else .ok (Guide.ranges document)

def coverageOf (o : ServerOptions) (tree : FileTree) (args : Json) : Except ToolError Coverage := do
  let document := args.textOr "document" []
  if document.isEmpty then
    let z ← sizingOf o args
    return (← scriptOf tree args z).coverage
  else
    let total := args.intOr "total_lines" (-1)
    if total < 0 then throw .noTotal
    return Coverage.ofRanges (← documentRanges document) total

def coverageJson (c : Coverage) : Json :=
  .record [
    ("perfect", .bool c.isPerfect),
    ("chunks", .ofNat c.ranges.length),
    ("expected_lines", .ofInt c.expected),
    ("covered_lines", .ofInt c.covered),
    ("gaps", .ofTexts (c.gaps.map LineRange.text)),
    ("overlaps", .ofTexts (c.overlaps.map fun (a, b) => a.text ++ " / " ++ b.text))]

/-! ### Directories -/

def pathOf (args : Json) : Except ToolError Text :=
  match args.get? "path" with
  | some (.string path) =>
    if path.isEmpty then .error .noPath
    else if !Path.isAbsolute path then .error .pathNotAbsolute
    else .ok (Path.clean path)
  | _ => .error .noPath

mutual

def hasScript (name : Text) : FileTree → Bool
  | .file _ | .lockedFile => Path.hasExtension name ".sql"
  | .directory entries => hasScriptIn entries

def hasScriptIn : List (Text × FileTree) → Bool
  | [] => false
  | (name, node) :: rest => hasScript name node || hasScriptIn rest

end

def checkDirectory (tree : FileTree) (path : Text) : Except DirectoryFault Unit :=
  match tree.at? path with
  | .error .missing => .error .missing
  | .error _ => .error .unreadable
  | .ok (.directory entries) => if hasScriptIn entries then .ok () else .error .noScripts
  | .ok _ => .error .notDirectory

def statisticsJson (s : IndexStatistics) : Json :=
  .record ([
    ("indexed", .bool true),
    ("scripts_found", .ofNat s.found),
    ("scripts_indexed", .ofNat s.indexed),
    ("scripts_skipped", .ofNat s.skipped),
    ("scripts_failed", .ofNat s.failed),
    ("scripts_removed", .ofNat s.removed),
    ("chunks_created", .ofNat s.chunks),
    ("sub_chunks", .ofNat s.parts)] ++
    (if s.errors.isEmpty then [] else [("errors", .ofTexts (s.errors.take 5))]) ++
    if s.errors.length ≤ 5 then [] else [("error_count", .ofNat s.errors.length)])

def index (s : Server) (c : CallContext) (args : Json) : Except ToolError Json × Server :=
  match pathOf args with
  | .error e => (.error e, s)
  | .ok path =>
    match checkDirectory c.tree path with
    | .error fault => (.error (.invalidDirectory fault), s)
    | .ok () =>
      let plan : IndexPlan := {
        sizing := s.options.sizing
        included := (args.texts? "include").getD s.options.included
        ignored := (args.texts? "ignore").or s.options.ignored
        force := args.boolOr "force_reindex" false }
      match Index.run Glob.library s.lock c.tree path c.analysis plan s.store with
      | (.error .inProgress, store) => (.error (.indexInProgress path), { s with store := store })
      | (.error e, store) => (.error (.indexFailed e), { s with store := store })
      | (.ok report, store) =>
        (.ok (statisticsJson report.statistics),
          { s with store := store, searcher := s.searcher.invalidate })

/-! ### Search -/

def requestOf (args : Json) : Except ToolError SearchRequest := do
  let query := Text.trim (args.textOr "query" [])
  if query.isEmpty then throw .noQuery
  let limit := args.intOr "limit" SearchRequest.defaultLimit
  if limit < 1 || SearchRequest.maxLimit < limit then throw (.limitOutOfRange limit)
  let kinds := (args.texts? "chunk_types").getD []
  match kinds.find? fun name => !(ChunkKind.ofName name).isKnown with
  | some name => throw (.unknownKind name)
  | none => pure ()
  let minComplexity := args.intOr "min_complexity" 0
  if minComplexity < 0 then throw (.negativeComplexity minComplexity)
  return {
    query := query, limit := limit, kinds := kinds, table := args.textOr "table" []
    minComplexity := minComplexity, cached := true }

def projectOf (s : Store) (path : Text) : Except ToolError ProjectRow :=
  match s.getProject path with
  | .ok project => .ok project
  | .error .notFound => .error (.notIndexed path)
  | .error e => .error (.projectFailed e)

/-- A result; its relevance has six places. -/
def resultJson (r : SearchResult) : Json :=
  let chunk := r.chunk.getD {}
  .record [
    ("rank", .ofInt r.rank),
    ("relevance_score", .string (Number.fixed 6 r.score)),
    ("script", .string ((r.script.map ScriptInfo.path).getD [])),
    ("chunk_id", .ofInt chunk.id),
    ("title", .string chunk.title),
    ("chunk_type", .string chunk.kind.name),
    ("start_line", .ofInt chunk.start),
    ("end_line", .ofInt chunk.stop),
    ("complexity", .ofInt chunk.complexity),
    ("tables", .ofTexts chunk.tables),
    ("summary", .string chunk.summary),
    ("content", .string chunk.content)]

def responseJson (query : Text) (r : SearchResponse) : Json :=
  .record [
    ("query", .string query),
    ("total_results", .ofNat r.results.length),
    ("cache_hit", .bool r.remembered),
    ("results", .array (r.results.map resultJson))]

def search (s : Server) (c : CallContext) (args : Json) : Except ToolError Json × Server :=
  let prepared : Except ToolError SearchRequest := do
    let path ← pathOf args
    let request ← requestOf args
    let project ← projectOf s.store path
    return { request with project := project.id }
  match prepared with
  | .error e => (.error e, s)
  | .ok request =>
    let (found, searcher) := s.searcher.search c.now s.store request
    let s := { s with searcher := searcher }
    match found with
    | .ok response => (.ok (responseJson request.query response), s)
    | .error .emptyQuery | .error (.store .emptyQuery) =>
      (.error (.nothingToSearch request.query), s)
    | .error e => (.error (.searchFailed e), s)

/-! ### Status -/

def statusJson (indexing : Bool) (s : Tables.Status) : Json :=
  .record [
    ("indexed", .bool true),
    ("indexing", .bool indexing),
    ("project", .record [
      ("path", .string s.project.root),
      ("index_version", .string s.project.version)]),
    ("statistics", .record [
      ("scripts_count", .ofNat s.scripts),
      ("chunks_count", .ofNat s.chunks),
      ("sub_chunks_count", .ofNat s.parts),
      ("total_complexity", .ofInt s.complexity),
      ("chunk_types", .object (s.kinds.map fun (name, count) => (name, .ofNat count)))]),
    ("health", .record [
      ("database_accessible", .bool s.accessible),
      ("fts_indexes_built", .bool s.fullText),
      ("schema_version", .string s.schema.text)])]

def notIndexedJson (indexing : Bool) (path : Text) : Json :=
  .record [
    ("indexed", .bool false),
    ("indexing", .bool indexing),
    ("path", .string path),
    ("message", .string "Directory not indexed. Use the index_scripts tool to index it.")]

def status (s : Server) (args : Json) : Except ToolError Json := do
  let path ← pathOf args
  let indexing := s.lock.holds path
  match s.store.getProject path with
  | .error .notFound => return notIndexedJson indexing path
  | .error e => throw (.projectStatusFailed e)
  | .ok project =>
    match s.store.status project.id with
    | .ok status => return statusJson indexing status
    | .error e => throw (.statusFailed e)

/-! ### Calls -/

def callTool (s : Server) (c : CallContext) (tool : Tool) (args : Json) :
    Except ToolError ToolReply × Server :=
  match args with
  | .object _ =>
    match tool with
    | .analyze => ((analyze s.options c.tree args).map .report, s)
    | .verify => ((coverageOf s.options c.tree args).map fun v => .record (coverageJson v), s)
    | .index =>
      let (reply, s) := s.index c args
      (reply.map .record, s)
    | .search =>
      let (reply, s) := s.search c args
      (reply.map .record, s)
    | .status => ((s.status args).map .record, s)
  | _ => (.error .invalidArguments, s)

def call (s : Server) (c : CallContext) (name : Text) (args : Json) :
    Except ToolError ToolReply × Server :=
  match Tool.ofName? name with
  | some tool => s.callTool c tool args
  | none => (.error (.unknownTool name), s)

/-- A new server with the same options, and the same tables if they are kept. -/
def reopen (s : Server) (keep : Bool) : Server :=
  { options := s.options, store := { tables := if keep then s.store.tables else {} } }

end Server

end ScriptAtlas
