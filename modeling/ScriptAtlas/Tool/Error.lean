import ScriptAtlas.Chunk.File
import ScriptAtlas.Guide.Format
import ScriptAtlas.Index.Run
import ScriptAtlas.Json.Basic
import ScriptAtlas.Search.Request

/-!
Why a tool call fails: each cause has a code, a message, and details.
-/

namespace ScriptAtlas

inductive DirectoryFault where
  | missing
  | unreadable
  | notDirectory
  | noScripts
  deriving DecidableEq, Repr

def DirectoryFault.message : DirectoryFault → Text
  | missing => "path does not exist"
  | unreadable => "path is not readable"
  | notDirectory => "path is not a directory"
  | noScripts => "directory does not contain .sql files"

inductive ToolError where
  | unknownTool (name : Text)
  | invalidArguments
  | invalidFormat (e : FormatError)
  | invalidStrategy (name : Text)
  | invalidSizing (e : SizingError)
  | pathAndContent
  | noPathOrContent
  | noPath
  | pathNotAbsolute
  | pathIsDirectory
  | scriptMissing (path : Text)
  | scriptUnreadable (e : ChunkFileError)
  | noTotal
  | invalidDocument
  | invalidDirectory (fault : DirectoryFault)
  | indexInProgress (path : Text)
  | indexFailed (e : IndexError)
  | noQuery
  | limitOutOfRange (limit : Int)
  | unknownKind (name : Text)
  | negativeComplexity (n : Int)
  | notIndexed (path : Text)
  | projectFailed (e : StoreError)
  | nothingToSearch (query : Text)
  | searchFailed (e : SearchError)
  | projectStatusFailed (e : StoreError)
  | statusFailed (e : StoreError)
  deriving DecidableEq, Repr

namespace ToolError

def invalidParameters : Int := -32602

def internalError : Int := -32603

def code : ToolError → Int
  | scriptMissing _ => -32004
  | indexInProgress _ => -32002
  | notIndexed _ => -32001
  | scriptUnreadable _ | indexFailed _ | projectFailed _ | searchFailed _ | projectStatusFailed _
  | statusFailed _ => internalError
  | _ => invalidParameters

def message : ToolError → Text
  | unknownTool name => "unknown tool " ++ name.quoted
  | invalidArguments => "invalid arguments"
  | invalidFormat _ => "invalid format"
  | invalidStrategy _ => "invalid strategy"
  | invalidSizing _ => "invalid chunking configuration"
  | pathAndContent => "use either path or content, not both"
  | noPathOrContent => "path or content parameter is required"
  | noPath => "path parameter is required"
  | pathNotAbsolute | pathIsDirectory | invalidDirectory _ => "invalid path"
  | scriptMissing _ => "script not found"
  | scriptUnreadable _ => "failed to read script"
  | noTotal => "total_lines is required with document"
  | invalidDocument => "invalid document"
  | indexInProgress _ => "indexing already in progress"
  | indexFailed _ => "indexing failed"
  | noQuery => "query parameter is required and cannot be empty"
  | limitOutOfRange _ => "limit must be between 1 and 100"
  | unknownKind _ => "invalid chunk type"
  | negativeComplexity _ => "min_complexity cannot be negative"
  | notIndexed _ => "directory not indexed"
  | projectFailed _ => "failed to load project"
  | nothingToSearch _ => "query has no searchable terms"
  | searchFailed _ => "search failed"
  | projectStatusFailed _ => "failed to get project status"
  | statusFailed _ => "failed to get status"

def parameter (name : String) (reason : Text) : Option Json :=
  some (.record [("param", .string name), ("reason", .string reason)])

def parameterValue (name : String) (value : Json) : Option Json :=
  some (.record [("param", .string name), ("value", value)])

def cause (text : Text) : Option Json :=
  some (.record [("error", .string text)])

def atPath (path : Text) : Option Json :=
  some (.record [("path", .string path)])

def details : ToolError → Option Json
  | unknownTool _ | invalidArguments | pathAndContent => none
  | invalidFormat e => some (.record [("param", .string "format"), ("reason", .string e.message),
      ("allowed", .ofTexts (Text.ofStrings ["json", "markdown"]))])
  | invalidStrategy name => some (.record [("param", .string "strategy"), ("value", .string name),
      ("allowed", .ofTexts (Text.ofStrings ["strict_logical", "size_constrained", "hybrid"]))])
  | invalidSizing e => some (.record [("reason", .string e.message)])
  | noPathOrContent | noPath => parameter "path" "missing or empty"
  | pathNotAbsolute => parameter "path" "path must be absolute"
  | pathIsDirectory => parameter "path" "path is a directory"
  | invalidDirectory fault => parameter "path" fault.message
  | scriptMissing path | indexInProgress path => atPath path
  | scriptUnreadable e => cause e.message
  | noTotal => parameter "total_lines" "missing or negative"
  | invalidDocument => some (.record [("param", .string "document")])
  | indexFailed e => cause e.message
  | noQuery => parameter "query" "missing or empty"
  | limitOutOfRange n => parameterValue "limit" (.ofInt n)
  | unknownKind name => parameterValue "chunk_types" (.string name)
  | negativeComplexity n => parameterValue "min_complexity" (.ofInt n)
  | notIndexed path => some (.record [("path", .string path),
      ("hint", .string "run index_scripts first")])
  | projectFailed e | projectStatusFailed e | statusFailed e => cause e.message
  | nothingToSearch query => parameterValue "query" (.string query)
  | searchFailed e => cause e.message

end ToolError

end ScriptAtlas
