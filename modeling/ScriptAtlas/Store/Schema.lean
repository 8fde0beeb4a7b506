import ScriptAtlas.Store.Version

/-!
The schema of the index: which tables, indexes and triggers exist, and which versions are recorded.
Each migration makes what is missing and records its version; taking one back drops its objects.
-/

namespace ScriptAtlas

structure Schema where
  objects : List Text := []
  versions : List Text := []
  deriving DecidableEq, Repr

inductive SchemaError where
  | invalidVersion (text : Text) (cause : VersionError)
  | nothingToRollBack (current : Version)
  | alreadyRecorded
  | noVersionTable
  deriving DecidableEq, Repr

def SchemaError.message : SchemaError → Text
  | invalidVersion text cause => "invalid schema version " ++ text ++ ": " ++ cause.message
  | nothingToRollBack current => "no migration to roll back from version " ++ current.text
  | alreadyRecorded => "UNIQUE constraint failed: schema_version.version"
  | noVersionTable => "SQL logic error: no such table: schema_version (1)"

structure Migration where
  version : Version
  makes : List Text
  deriving DecidableEq, Repr

namespace Migration

def first : Migration where
  version := ⟨1, 0, 0, [], []⟩
  makes := Text.ofStrings ["schema_version", "projects", "scripts", "idx_scripts_project",
    "idx_scripts_hash", "chunks", "idx_chunks_script", "idx_chunks_type", "idx_chunks_complexity",
    "chunk_dependencies", "chunks_fts", "chunks_ai", "chunks_ad", "chunks_au"]

def lookups : Migration where
  version := ⟨1, 1, 0, [], []⟩
  makes := Text.ofStrings ["idx_scripts_analysis", "idx_chunk_dependencies_target"]

def all : List Migration :=
  [first, lookups]

def current : Version :=
  lookups.version

end Migration

namespace Schema

def versionTable : Text := "schema_version"

def hasVersions (s : Schema) : Bool :=
  s.objects.elem versionTable

def latest : Version → List Text → Except SchemaError Version
  | best, [] => .ok best
  | best, text :: rest =>
    match Version.parse text with
    | .error cause => .error (.invalidVersion text cause)
    | .ok v => latest (if best.isBefore v then v else best) rest

/-- The greatest recorded version; without a record it is 0.0.0. -/
def version (s : Schema) : Except SchemaError Version :=
  if s.hasVersions then latest .zero (Text.sort s.versions) else .ok .zero

def record (s : Schema) (text : Text) : Except SchemaError Schema :=
  if !s.hasVersions then .error .noVersionTable
  else if s.versions.elem text then .error .alreadyRecorded
  else .ok { s with versions := s.versions ++ [text] }

def forget (s : Schema) (text : Text) : Except SchemaError Schema :=
  if !s.hasVersions then .error .noVersionTable
  else .ok { s with versions := s.versions.filter (· != text) }

def step (s : Schema) (m : Migration) : Except SchemaError Schema :=
  let made : Schema := { s with objects := s.objects ++ m.makes.filter fun o => !s.objects.elem o }
  made.record m.version.text

def applyFrom (s : Schema) (current : Version) : List Migration → Except SchemaError Schema
  | [] => .ok s
  | m :: rest =>
    if current.isBefore m.version then
      match s.step m with
      | .error e => .error e
      | .ok s' => applyFrom s' m.version rest
    else applyFrom s current rest

def apply (s : Schema) : Except SchemaError Schema := do
  applyFrom s (← s.version) Migration.all

/-- Takes the latest migration back. The first one drops everything. -/
def rollBack (s : Schema) : Except SchemaError Schema := do
  let current ← s.version
  match Migration.all.find? fun m => m.version.isSame current with
  | none => throw (.nothingToRollBack current)
  | some m =>
    if m.version == Migration.first.version then return {}
    else
      return { objects := s.objects.filter fun o => !m.makes.elem o
               versions := s.versions.filter (· != m.version.text) }

end Schema

end ScriptAtlas
