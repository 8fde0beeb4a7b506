import ScriptAtlas.Settings.Basic
import ScriptAtlas.Text.Case
import ScriptAtlas.Yaml.Reader

/-!
Settings from several places. For every key a flag comes first, then the environment, then the file of
the project, then the default. Names in the file may be written in any case.
-/

namespace ScriptAtlas

inductive SettingsError where
  | unreadable
  | wrongType
  | invalid (faults : List SettingsFault)
  deriving DecidableEq, Repr

def SettingsError.message : SettingsError → Text
  | unreadable => "failed to read config file"
  | wrongType => "failed to unmarshal config"
  | invalid faults => "invalid configuration: " ++ SettingsFault.messages faults

structure SettingsSources where
  flags : List (Text × Yaml) := []
  environment : List (Text × Text) := []
  file : Yaml := .null

namespace SettingsSources

def nonemptyVariable (s : SettingsSources) (name : Text) : Option Text :=
  ((s.environment.find? fun (n, _) => n == name).map Prod.snd).filter fun t => !t.isEmpty

def variableName (names : List Text) : Text :=
  (Text.join "_" ("SQLCHUNKER" :: names)).upper

def databaseVariable : Text := "SQLCHUNKER_DB_PATH"

def variableNames : List Text :=
  let keys : List (Text × List Text) := [
    ("chunking", Text.ofStrings ["strategy", "target_size", "min_size", "max_size",
      "force_threshold", "max_complexity", "max_depth"]),
    ("paths", Text.ofStrings ["include", "ignore"]),
    ("index", Text.ofStrings ["workers", "batch_size"]),
    ("storage", Text.ofStrings ["db_path"])]
  databaseVariable :: keys.flatMap fun (group, names) =>
    variableName [group] :: names.map fun key => variableName [group, key]

def given? : Option Yaml → Option Yaml
  | some .null => none
  | value => value

/-- The value of a key in the file: under its full name, or in its section. -/
def inFile? (s : SettingsSources) (group key : Text) : Option Yaml :=
  match given? (s.file.member? (group ++ "." ++ key)) with
  | some value => some value
  | none => given? ((s.file.member? group).bind (Yaml.member? key))

/-- The value of a key outside the defaults; `others` are further variables that may hold it. A
variable with the name of the section hides the file, the other variables and the defaults. -/
def find (s : SettingsSources) (group key : Text) (others : List Text) (fallback : Yaml) :
    Option Yaml :=
  match (s.flags.find? fun (k, _) => k == group ++ "." ++ key).map Prod.snd with
  | some value => some value
  | none =>
    match s.nonemptyVariable (variableName [group, key]) with
    | some t => some (.string t)
    | none =>
      if (s.nonemptyVariable (variableName [group])).isSome then none
      else
        match others.findSome? s.nonemptyVariable with
        | some t => some (.string t)
        | none => some ((s.inFile? group key).getD fallback)

def isGroup (s : SettingsSources) (group : Text) : Bool :=
  match s.file.member? group with
  | none | some .null | some (.map _) => true
  | _ => false

def number (s : SettingsSources) (group key : Text) (fallback : Int) :
    Except SettingsError Int :=
  match s.find group key [] (.int fallback) with
  | none => .ok 0
  | some value =>
    match value.toInt? with
    | some n => .ok n
    | none => .error .wrongType

def word (s : SettingsSources) (group key : Text) (others : List Text) (fallback : Text) :
    Except SettingsError Text :=
  match s.find group key others (.string fallback) with
  | none => .ok []
  | some value =>
    match value.toText? with
    | some t => .ok t
    | none => .error .wrongType

def words (s : SettingsSources) (group key : Text) (fallback : List Text) :
    Except SettingsError (List Text) :=
  match s.find group key [] (.list (fallback.map .string)) with
  | none => .ok []
  | some value =>
    match value.toTexts? with
    | some ts => .ok ts
    | none => .error .wrongType

def settings (s : SettingsSources) : Except SettingsError Settings := do
  let base := Settings.default
  if !(Text.ofStrings ["chunking", "paths", "index", "storage"]).all s.isGroup then
    throw .wrongType
  let strategy ← s.word "chunking" "strategy" [] base.sizing.strategy.name
  let target ← s.number "chunking" "target_size" base.sizing.target
  let min ← s.number "chunking" "min_size" base.sizing.min
  let max ← s.number "chunking" "max_size" base.sizing.max
  let force ← s.number "chunking" "force_threshold" base.sizing.force
  let complexity ← s.number "chunking" "max_complexity" base.sizing.complexity
  let depth ← s.number "chunking" "max_depth" base.sizing.depth
  let included ← s.words "paths" "include" base.included
  let ignored ← s.words "paths" "ignore" base.ignored
  let workers ← s.number "index" "workers" base.workers
  let batch ← s.number "index" "batch_size" base.batch
  let database ← s.word "storage" "db_path" [databaseVariable] base.database
  let sizing : Sizing := {
    strategy := .ofName strategy, target := target, min := min, max := max, force := force,
    complexity := complexity, depth := depth }
  return {
    sizing := sizing, included := included, ignored := ignored, workers := workers, batch := batch,
    database := database }

end SettingsSources

namespace Settings

/-- The names that a settings file may have, the first that is there counts. -/
def fileNames : List Text :=
  Text.ofStrings ["config", "config.json", "config.toml", "config.yaml", "config.yml",
    "config.properties", "config.props", "config.prop", "config.hcl", "config.tfvars",
    "config.dotenv", "config.env", "config.ini"]

def fileIn (tree : FileTree) (directory : Text) : List Text → Except SettingsError (Option Text)
  | [] => .ok none
  | name :: rest =>
    let path := Path.join [directory, ".sqlchunker", name]
    match tree.at? path with
    | .error .missing => fileIn tree directory rest
    | .error _ => .error .unreadable
    | .ok (.directory _) => fileIn tree directory rest
    | .ok .lockedFile => .error .unreadable
    | .ok (.file content) => .ok (some content)

mutual

def lowerNames : Yaml → Yaml
  | .map members => .map (lowerMembers members)
  | value => value

def lowerMembers : List (Text × Yaml) → List (Text × Yaml)
  | [] => []
  | (name, value) :: rest => (name.lower, lowerNames value) :: lowerMembers rest

end

/-- The value of a settings file; it is a mapping or nothing. -/
def readFile (content : Option Text) : Except SettingsError Yaml :=
  match content with
  | none => .ok .null
  | some content =>
    match Yaml.parse? content with
    | some .null => .ok .null
    | some (.map members) => .ok (lowerNames (.map members))
    | _ => .error .unreadable

def load (tree : FileTree) (directory : Text) (environment : List (Text × Text))
    (flags : List (Text × Yaml)) : Except SettingsError Settings := do
  let file ← readFile (← fileIn tree directory fileNames)
  let sources : SettingsSources :=
    { flags := flags.map fun (key, value) => (key.lower, value)
      environment := environment
      file := file }
  let settings ← sources.settings
  match settings.faults with
  | [] => return settings
  | faults => throw (.invalid faults)

end Settings

end ScriptAtlas
