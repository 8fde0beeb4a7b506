import ScriptAtlas.Chunk.Sizing
import ScriptAtlas.Files.Discovery
import ScriptAtlas.Glob.Compile

/-!
Settings: chunk sizing, the scripts to index, and where the index is kept. A check reports every fault
at once.
-/

namespace ScriptAtlas

structure Settings where
  sizing : Sizing
  included : List Text
  ignored : List Text
  /-- Scripts chunked at once; zero leaves the choice open. -/
  workers : Int
  batch : Int
  database : Text
  deriving DecidableEq, Repr

inductive PatternList where
  | included
  | ignored
  deriving DecidableEq, Repr

def PatternList.name : PatternList → Text
  | included => "paths.include"
  | ignored => "paths.ignore"

inductive SettingsFault where
  | sizing (e : SizingError)
  | emptyPattern (list : PatternList)
  | pattern (list : PatternList) (pattern : Text) (cause : GlobError)
  | negativeWorkers (n : Int)
  | batchNotPositive (n : Int)
  | emptyDatabase
  deriving DecidableEq, Repr

def SettingsFault.message : SettingsFault → Text
  | sizing e => "invalid chunking configuration: " ++ e.message
  | emptyPattern list => "invalid path pattern: " ++ list.name ++ " contains an empty pattern"
  | pattern list p cause =>
    "invalid path pattern: " ++ list.name ++ " " ++ p.quoted ++ ": " ++ cause.message
  | negativeWorkers n =>
    "invalid worker count: workers cannot be negative, got " ++ Text.ofInt n
  | batchNotPositive n =>
    "invalid batch size: batch_size must be positive, got " ++ Text.ofInt n
  | emptyDatabase => "empty database path: storage.db_path is required"

def SettingsFault.messages (faults : List SettingsFault) : Text :=
  Text.join "\n" (faults.map SettingsFault.message)

namespace Settings

def defaultDatabase : Text := "~/.sqlchunker/index.db"

def default : Settings where
  sizing := Sizing.default
  included := PathFilter.defaultIncluded
  ignored := PathFilter.defaultIgnored
  workers := 0
  batch := 20
  database := defaultDatabase

def patternFaults (list : PatternList) (p : Text) : List SettingsFault :=
  if (Text.trim p).isEmpty then [.emptyPattern list]
  else
    match Glob.compile p with
    | .ok _ => []
    | .error cause => [.pattern list p cause]

def faults (s : Settings) : List SettingsFault :=
  (match s.sizing.check with
    | .ok _ => []
    | .error e => [.sizing e]) ++
  s.included.flatMap (patternFaults .included) ++
  s.ignored.flatMap (patternFaults .ignored) ++
  (if s.workers < 0 then [.negativeWorkers s.workers] else []) ++
  (if s.batch ≤ 0 then [.batchNotPositive s.batch] else []) ++
  (if (Text.trim s.database).isEmpty then [.emptyDatabase] else [])

/-- A place with `~` for the home directory; an empty one is the default. -/
def expandPath (home path : Text) : Text :=
  let path := if path.isEmpty then defaultDatabase else path
  if path == Text.ofString "~" || path.startsWith "~/" then Path.join [home, path.drop 1] else path

end Settings

end ScriptAtlas
