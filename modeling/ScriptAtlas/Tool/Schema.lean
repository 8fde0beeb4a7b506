import ScriptAtlas.Chunk.Basic
import ScriptAtlas.Json.Basic

/-!
The tools as clients see them: names, descriptions and parameters.
-/

namespace ScriptAtlas

inductive Tool where
  | analyze
  | verify
  | index
  | search
  | status
  deriving DecidableEq, Repr

namespace Tool

def all : List Tool :=
  [analyze, verify, index, search, status]

def name : Tool → Text
  | analyze => "analyze_sql"
  | verify => "verify_coverage"
  | index => "index_scripts"
  | search => "search_chunks"
  | status => "get_status"

def ofName? (name : Text) : Option Tool :=
  all.find? fun tool => tool.name == name

def description : Tool → Text
  | analyze => "Split a procedural SQL script into logically coherent, size-bounded chunks and return an analysis guide or JSON export"
  | verify => "Check that a chunk sequence covers every line of a script exactly once, reporting gaps and overlaps"
  | index => "Chunk every SQL script below a directory and store the chunks for searching"
  | search => "Keyword search over the stored chunks of an indexed directory"
  | status => "Query indexing status and statistics for a directory of SQL scripts"

def parameter (name type description : String) (more : List (String × Json)) : Text × Json :=
  (name, .record (("type", .string type) :: ("description", .string description) :: more))

def minimum (n : Int) : String × Json :=
  ("minimum", .ofInt n)

def choices (names : List Text) : String × Json :=
  ("enum", .ofTexts names)

def textItems : String × Json :=
  ("items", .record [("type", .string "string")])

def sizingParameters : List (Text × Json) := [
  parameter "strategy" "string"
    "Chunking strategy: strict_logical keeps blocks whole, size_constrained splits oversized blocks, hybrid also forces splits above force_threshold"
    [choices (Text.ofStrings ["strict_logical", "size_constrained", "hybrid"]),
      ("default", .string "hybrid")],
  parameter "target_size" "integer" "Preferred lines per sub-chunk" [minimum 1],
  parameter "min_size" "integer" "Sub-chunks shorter than this are not cut" [minimum 1],
  parameter "max_size" "integer" "Block size in lines above which a block is subdivided" [minimum 1],
  parameter "force_threshold" "integer"
    "Hybrid strategy: blocks above this many lines are always subdivided" [minimum 1],
  parameter "max_complexity" "integer" "Block complexity above which a block is subdivided"
    [minimum 1],
  parameter "max_depth" "integer" "Maximum subdivision recursion depth" [minimum 1]]

def parameters : Tool → List (Text × Json)
  | analyze => [
      parameter "path" "string" "Absolute path to a SQL script (use either path or content)" [],
      parameter "content" "string" "SQL script text (use either path or content)" [],
      parameter "format" "string" "Output format"
        [choices (Text.ofStrings ["json", "markdown"]), ("default", .string "json")]] ++
      sizingParameters
  | verify => [
      parameter "path" "string" "Absolute path to a SQL script to chunk and check" [],
      parameter "document" "string"
        "A rendered analysis guide (markdown) or JSON export to check instead of a script" [],
      parameter "total_lines" "integer"
        "Line count of the script the document describes (required with document)" [minimum 0]] ++
      sizingParameters
  | index => [
      parameter "path" "string" "Absolute path to the directory holding the scripts" [],
      parameter "force_reindex" "boolean" "If true, re-chunk all scripts ignoring content hashes"
        [("default", .bool false)],
      parameter "include" "array" "Glob patterns of scripts to index (default: **/*.sql)" [textItems],
      parameter "ignore" "array" "Glob patterns to skip" [textItems]]
  | search => [
      parameter "path" "string" "Absolute path to an indexed directory" [],
      parameter "query" "string" "Keywords (table names, procedure names, SQL terms)" [],
      parameter "limit" "integer" "Maximum number of results to return (1-100)"
        [("default", .ofInt 10), minimum 1, ("maximum", .ofInt 100)],
      parameter "chunk_types" "array" "Keep only these chunk types"
        [("items", .record [("type", .string "string"),
          choices (ChunkKind.priority.map ChunkKind.name)])],
      parameter "table" "string" "Keep only chunks that access this table" [],
      parameter "min_complexity" "integer" "Keep only chunks at or above this complexity score"
        [minimum 0]]
  | status => [parameter "path" "string" "Absolute path to the directory" []]

def required : Tool → List Text
  | analyze | verify => []
  | index | status => Text.ofStrings ["path"]
  | search => Text.ofStrings ["path", "query"]

def schema (tool : Tool) : Json :=
  .record [
    ("name", .string tool.name),
    ("description", .string tool.description),
    ("inputSchema", .record ([
      ("type", .string "object"),
      ("properties", .object tool.parameters)] ++
      if tool.required.isEmpty then [] else [("required", .ofTexts tool.required)])),
    ("annotations", .object [])]

end Tool

end ScriptAtlas
