import ScriptAtlas.Chunk.File
import ScriptAtlas.Command.Basic
import ScriptAtlas.Command.Display
import ScriptAtlas.Command.Help
import ScriptAtlas.Glob.Compile
import ScriptAtlas.Guide.Ranges
import ScriptAtlas.Guide.Render
import ScriptAtlas.Index.Run
import ScriptAtlas.Json.Fault
import ScriptAtlas.Search.Searcher
import ScriptAtlas.Settings.Load
import ScriptAtlas.Store.Snapshot

/-!
Running commands: what each shows, which files it leaves behind, and why it fails. The index is kept
in a file, so a later command finds what an earlier one stored.
-/

namespace ScriptAtlas

structure Surroundings where
  tree : FileTree
  here : Text
  home : Text
  environment : List (Text × Text) := []
  analysis : Text := []

inductive CommandError where
  | usage (e : UsageError)
  | invalidColor (name : Text)
  | settings (e : SettingsError)
  | sizing (e : SizingError)
  | format (e : FormatError)
  | script (e : ChunkFileError)
  | report (e : FileError)
  | unreadable (path : Text) (e : FileError)
  /-- Not JSON, or, without a fault, a value of the wrong type. -/
  | invalidExport (fault : Option JsonFault)
  | notCovered
  | databaseDirectory (e : FileError)
  | invalidDatabase
  | index (e : IndexError)
  | scriptsFailed (failed found : Nat)
  | notIndexed (root given : Text)
  | project (e : StoreError)
  | search (e : SearchError)
  deriving DecidableEq, Repr

def CommandError.message : CommandError → Text
  | usage e => e.message
  | invalidColor name => "invalid --color value " ++ name.quoted ++ " (auto|on|off)"
  | settings e => e.message
  | sizing e => e.message
  | format e => e.message
  | script e => e.message
  | report e => "failed to write report: " ++ e.message
  | unreadable path e => "failed to read " ++ path ++ ": " ++ e.message
  | invalidExport (some fault) => "failed to parse export: " ++ fault.message
  | invalidExport none => "failed to parse export: a value has the wrong type"
  | notCovered => "chunk coverage check failed"
  | databaseDirectory e => "failed to create database directory: " ++ e.message
  | invalidDatabase => "failed to open index: file is not a database"
  | index e => e.message
  | scriptsFailed failed found =>
    Text.ofNat failed ++ " of " ++ Text.ofNat found ++ " scripts could not be indexed"
  | notIndexed root given =>
    root ++ " is not indexed; run '" ++ programName ++ " index " ++ given ++ "' first"
  | project e => e.message
  | search e => e.message

structure WrittenFile where
  path : Text
  content : Text
  deriving DecidableEq, Repr

structure CommandOutcome where
  output : Display := []
  notes : Display := []
  written : List WrittenFile := []
  failure : Option CommandError := none
  color : ColorMode := .auto
  deriving DecidableEq, Repr

def Surroundings.after (s : Surroundings) (o : CommandOutcome) : Surroundings :=
  { s with tree := o.written.foldl (fun tree file => tree.write file.path file.content) s.tree }

namespace Command

/-! ### Settings and the index -/

def settingsValue : FlagValue → Yaml
  | .word t => .string t
  | .number n => .int n
  | .switch b => .bool b
  | .list ts => .list (ts.map .string)

def overrides (a : Arguments) : List (Text × Yaml) :=
  settingsKeys.filterMap fun (flag, key) => (a.flag? flag).map fun v => (key, settingsValue v)

def settingsDirectory (s : Surroundings) (a : Arguments) : Text :=
  Path.absolute s.here (a.word "project" [])

def loadSettings (s : Surroundings) (a : Arguments) : Except CommandError Settings :=
  match Settings.load s.tree (settingsDirectory s a) s.environment (overrides a) with
  | .ok settings => .ok settings
  | .error e => .error (.settings e)

def sizingOf (settings : Settings) : Except CommandError Sizing :=
  match settings.sizing.resolve with
  | .ok z => .ok z
  | .error e => .error (.sizing e)

/-- An index that lives only as long as the command. -/
def inMemory : Text := ":memory:"

def indexPath (s : Surroundings) (settings : Settings) : Text :=
  Settings.expandPath s.home settings.database

/-- Opens the index of settings. A missing one is empty. -/
def openIndex (s : Surroundings) (settings : Settings) : Except CommandError Store :=
  let path := indexPath s settings
  if path == inMemory then .ok {}
  else
    match s.tree.directoryFault s.here (Path.directory path) with
    | some e => .error (.databaseDirectory e)
    | none =>
      match s.tree.at? (FileTree.placeFrom s.here path) with
      | .error _ => .ok {}
      | .ok (.file content) =>
        match Snapshot.parse? content with
        | some tables => .ok { tables := tables }
        | none => .error .invalidDatabase
      | .ok _ => .error .invalidDatabase

def keepIndex (s : Surroundings) (settings : Settings) (store : Store) : List WrittenFile :=
  let path := indexPath s settings
  if path == inMemory then []
  else [⟨Path.absolute s.here path, Snapshot.render store.tables⟩]

/-! ### Scripts and coverage -/

def tick : Fragment := .styled .success "✓"

def cross : Fragment := .styled .failure "✗"

def coveredLines (c : Coverage) : Text :=
  " Coverage: " ++ Text.ofInt c.covered ++ "/" ++ Text.ofInt c.expected ++ " lines"

def showCoverage (c : Coverage) : Display :=
  if c.isPerfect then [tick, .plain (coveredLines c ++ ", no gaps or overlaps\n")]
  else
    [cross, .plain (coveredLines c ++ "\n")] ++
    (c.gaps.map fun gap => Fragment.plain ("  gap      lines " ++ gap.text ++ "\n")) ++
    c.overlaps.map fun (a, b) =>
      Fragment.plain ("  overlap  lines " ++ a.text ++ " and " ++ b.text ++ "\n")

/-- Counts of lines by class, and the warnings. -/
def showReading (r : Reading) : Display :=
  .plain ("  " ++ Text.ofNat r.script.codeLines ++ " code, " ++
    Text.ofNat r.script.commentLines ++ " comment, " ++ Text.ofNat r.script.blankLines ++
    " blank lines\n") ::
  r.warnings.map fun w =>
    Fragment.plain ("  line " ++ Text.ofInt w.line ++ ": " ++ w.message ++ "\n")

def showAnalysis (path report : Text) (verbose : Bool) (c : ChunkedScript) : Display :=
  [tick, .plain (" " ++ path ++ ": " ++ Text.ofNat c.reading.script.size ++ " lines, " ++
    Text.ofNat c.chunks.length ++ " chunks (" ++
    Text.ofNat (c.chunks.countP fun chunk => chunk.part.isSome) ++ " sub-chunks)\n")] ++
  showCoverage c.coverage ++
  (if verbose then showReading c.reading else []) ++
  if report.isEmpty then []
  else [.plain "  Report written to ", .styled .accent report, .plain "\n"]

def chunkFile (s : Surroundings) (path : Text) (z : Sizing) : Except CommandError ChunkedScript :=
  match ChunkedScript.ofFile s.tree s.here path z with
  | .ok script => .ok script
  | .error e => .error (.script e)

def runAnalyze (s : Surroundings) (a : Arguments) (path : Text) :
    Except CommandError CommandOutcome := do
  let settings ← loadSettings s a
  let format ←
    match Format.parse (a.word "format" "markdown") with
    | .ok format => pure format
    | .error e => throw (.format e)
  let z ← sizingOf settings
  let script ← chunkFile s path z
  let text ←
    match Guide.render format script.chunks z with
    | .ok text => pure text
    | .error e => throw (.format e)
  let report := a.word "output" []
  let notes := showAnalysis path report (a.switch "verbose") script
  if report.isEmpty then return { output := [.plain text], notes := notes }
  match s.tree.writeFault s.here report with
  | some e => throw (.report e)
  | none => return { notes := notes, written := [⟨Path.absolute s.here report, text⟩] }

def readFile (s : Surroundings) (path : Text) : Except CommandError Text :=
  match s.tree.readFrom s.here path with
  | .ok content => .ok content
  | .error e => .error (.unreadable path e)

def documentRanges (s : Surroundings) (path : Text) : Except CommandError (List LineRange) := do
  let content ← readFile s path
  if Path.hasExtension path ".json" then
    match Export.parse? content with
    | some e => return e.ranges
    | none => throw (.invalidExport (Json.fault? content))
  return Guide.ranges content

/-- The number of lines that a document should cover: those of the script, the number given, or the
last line it has. -/
def expectedLines (s : Surroundings) (a : Arguments) (ranges : List LineRange) :
    Except CommandError Int := do
  let script := a.word "script" []
  if !script.isEmpty then return (Script.splitLines (← readFile s script)).length
  let total := a.number "total-lines" (-1)
  if 0 ≤ total then return total
  return ranges.foldl (fun last range => max last range.last) 0

def coverageOf (s : Surroundings) (a : Arguments) (path : Text) : Except CommandError Coverage := do
  if Path.hasExtension path ".sql" then
    let z ← sizingOf (← loadSettings s a)
    return (← chunkFile s path z).coverage
  let ranges ← documentRanges s path
  return Coverage.ofRanges ranges (← expectedLines s a ranges)

def runVerify (s : Surroundings) (a : Arguments) (path : Text) :
    Except CommandError CommandOutcome := do
  let coverage ← coverageOf s a path
  return {
    output :=
      .plain (path ++ ": " ++ Text.ofNat coverage.ranges.length ++ " chunks\n") ::
        showCoverage coverage
    failure := if coverage.isPerfect then none else some .notCovered }

/-! ### Indexing -/

def padded (name : Text) : Text :=
  name ++ List.replicate (8 - name.length) 0x20

def showProcessed (r : IndexReport) : Display :=
  r.processed.map fun (path, outcome) =>
    Fragment.plain ("  " ++ padded outcome.name ++ " " ++ path ++ "\n")

def showFailures (s : IndexStatistics) : Display :=
  if s.failed == 0 then []
  else
    [cross, .plain (" " ++ Text.ofNat s.failed ++ " scripts failed\n")] ++
    s.errors.map fun message => Fragment.plain ("  " ++ message ++ "\n")

def showIndexing (verbose : Bool) (r : IndexReport) : Display :=
  let s := r.statistics
  [.plain ("Found " ++ Text.ofNat s.found ++ " SQL scripts\n")] ++
  (if verbose then showProcessed r else []) ++
  [tick, .plain (" Indexing complete: " ++ Text.ofNat s.chunks ++ " chunks in "), .elapsed,
    .plain ("\n  Scripts: " ++ Text.ofNat s.indexed ++ " indexed, " ++ Text.ofNat s.skipped ++
      " unchanged, " ++ Text.ofNat s.removed ++ " removed\n")] ++
  (if s.parts == 0 then [] else [.plain ("  Sub-chunks: " ++ Text.ofNat s.parts ++ "\n")]) ++
  showFailures s

def indexFailure (s : IndexStatistics) : Option CommandError :=
  if s.failed == 0 then none else some (.scriptsFailed s.failed s.found)

def runIndex (s : Surroundings) (a : Arguments) (directory : Text) :
    Except CommandError CommandOutcome := do
  let settings ← loadSettings s a
  let store ← openIndex s settings
  let plan : IndexPlan := {
    sizing := settings.sizing, included := settings.included, ignored := some settings.ignored
    batch := settings.batch, force := a.switch "force" }
  let (result, store) := Index.run Glob.library {} s.tree (Path.absolute s.here directory) s.analysis plan store
  let written := keepIndex s settings store
  match result with
  | .error e => return { written := written, failure := some (.index e) }
  | .ok report =>
    return {
      notes := if a.switch "quiet" then [] else showIndexing (a.switch "verbose") report
      written := written
      failure := indexFailure report.statistics }

/-! ### Search -/

def ranked (n : Int) : Text :=
  let digits := Text.ofInt n
  List.replicate (2 - digits.length) 0x20 ++ digits

def tablesShown (tables : List Text) : Text :=
  if tables.isEmpty then [] else (" tables=" : Text) ++ Text.join "," tables

def showResult (content : Bool) (r : SearchResult) : Display :=
  let chunk := r.chunk.getD {}
  let path := (r.script.map ScriptInfo.path).getD []
  [.plain (ranked r.rank ++ ". "),
    .styled .accent (path ++ ":" ++ (LineRange.mk chunk.start chunk.stop).text),
    .plain (" " ++ chunk.title ++ "\n    type=" ++ chunk.kind.name ++ " complexity=" ++
      Text.ofInt chunk.complexity ++ " score=" ++ Number.fixed 3 r.score ++
      tablesShown chunk.tables ++ "\n")] ++
  if content then
    (Text.splitAt 0x0A chunk.content).map fun line => Fragment.plain ("    | " ++ line ++ "\n")
  else []

def showResults (query : Text) (content verbose : Bool) (results : List SearchResult) : Display :=
  if results.isEmpty then [.plain ("No chunks match " ++ query.quoted ++ "\n")]
  else
    results.flatMap (showResult content) ++
    if verbose then
      [.plain (Text.ofNat results.length ++ " results in "), .elapsed, .plain "\n"]
    else []

def searchRequest (a : Arguments) (query : Text) : SearchRequest where
  query := query
  limit := a.number "limit" SearchRequest.defaultLimit
  kinds := a.list "type"
  table := a.word "table" []
  minComplexity := a.number "min-complexity" 0
  files := a.word "files" []

def runSearch (s : Surroundings) (a : Arguments) (directory : Text) (words : List Text) :
    Except CommandError CommandOutcome := do
  let settings ← loadSettings s a
  let store ← openIndex s settings
  let written := keepIndex s settings store
  let root := Path.absolute s.here directory
  let query := Text.join " " words
  match store.getProject root with
  | .error .notFound =>
    return { written := written, failure := some (.notIndexed root directory) }
  | .error e => return { written := written, failure := some (.project e) }
  | .ok project =>
    match (({} : Searcher).search 0 store { searchRequest a query with project := project.id }).1 with
    | .error e => return { written := written, failure := some (.search e) }
    | .ok response =>
      return {
        output := showResults query (a.switch "content") (a.switch "verbose") response.results
        written := written }

/-! ### Version -/

def versionName : Text := "dev"

def showVersion : Display :=
  [.plain (programName ++ " version " ++ versionName ++ "\n")]

def showBuild : Display :=
  [.plain (programName ++ " " ++ versionName ++ "\n" ++
    "Git commit: none\nBuild date: unknown\nBuild mode: purego\nSQLite driver: sqlite\n" ++
    "Index schema: " ++ Migration.current.text ++ "\n")]

/-! ### Commands -/

/-- Runs a command. Of serving, which goes on for as long as clients call, only the settings are
checked. -/
def execute (s : Surroundings) (c : Command) (a : Arguments) : Except CommandError CommandOutcome :=
  match c, a.rest with
  | analyze, path :: _ => runAnalyze s a path
  | verify, path :: _ => runVerify s a path
  | index, [] => runIndex s a "."
  | index, directory :: _ => runIndex s a directory
  | search, directory :: words => runSearch s a directory words
  | serve, _ => (loadSettings s a).map fun _ => {}
  | version, _ => .ok { output := showBuild }
  | help, words => .ok { output := [.plain (helpOn words)] }
  | _, _ => .ok {}

def settle (color : ColorMode) : Except CommandError CommandOutcome → CommandOutcome
  | .ok outcome => { outcome with color := color }
  | .error e => { failure := some e, color := color }

/-- The directory that a command reads with all below it. -/
def sourceDirectory? (s : Surroundings) (c : Command) (a : Arguments) : Option Text :=
  match c with
  | index => some (Path.absolute s.here (a.rest.headD "."))
  | _ => none

/-- The paths that matter to a command: the files it reads, and those it writes with their
directories. -/
def touchedPaths (s : Surroundings) (c : Command) (a : Arguments) : List Text :=
  let written (path : Text) : List Text := if path.isEmpty then [] else [Path.directory path, path]
  let paths :=
    match c with
    | analyze => a.rest ++ written (a.word "output" [])
    | verify => a.rest ++ [a.word "script" []]
    | _ => []
  let database :=
    match loadSettings s a with
    | .ok settings => written (indexPath s settings)
    | .error _ => []
  ((paths ++ database).filter fun path => !path.isEmpty).map (Path.absolute s.here)

def perform (s : Surroundings) : Call → CommandOutcome
  | .help topic => { output := [.plain (helpText topic)] }
  | .version => { output := showVersion }
  | .run c a =>
    let name := a.word "color" "auto"
    match ColorMode.ofName? name with
    | none => { failure := some (.invalidColor name) }
    | some color => settle color (execute s c a)

def run (s : Surroundings) (given : List Text) : CommandOutcome :=
  match read given with
  | .error e => { failure := some (.usage e) }
  | .ok call => perform s call

end Command

end ScriptAtlas
