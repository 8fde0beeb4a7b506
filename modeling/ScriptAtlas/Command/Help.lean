import ScriptAtlas.Command.Basic

/-!
Help on the program and its commands: a description, how the command is called, and its flags in the
order of their names.
-/

namespace ScriptAtlas

namespace Flag

def valueName (f : Flag) : Text :=
  match f.kind with
  | .word => " string"
  | .number => " int"
  | .switch => []
  | .list => " strings"

/-- A flag as help lists it: its letter, its name and its value. -/
def spelling (f : Flag) : Text :=
  let letter : Text :=
    match f.letter with
    | none => "      --"
    | some letter => "  -" ++ letter :: ", --"
  letter ++ f.name ++ f.valueName

def standardShown (f : Flag) : Text :=
  match f.standard with
  | some (.word t) => " (default " ++ t.quoted ++ ")"
  | some (.number n) => " (default " ++ Text.ofInt n ++ ")"
  | _ => []

/-- Flags by their names, one on a line, with what they do in a column of its own. -/
def lines (flags : List Flag) : List Text :=
  let flags := flags.mergeSort fun a b => !Text.before b.name a.name
  let width := flags.foldl (fun width f => Nat.max width f.spelling.length) 0
  flags.map fun f =>
    f.spelling ++ List.replicate (width - f.spelling.length + 3) 0x20 ++ f.about ++ f.standardShown

end Flag

namespace Command

def synopsis : Command → Text
  | analyze => "analyze FILE"
  | verify => "verify FILE"
  | index => "index [DIR]"
  | search => "search DIR QUERY..."
  | help => "help [command]"
  | c => c.name

def summary : Command → Text
  | analyze => "Chunk a SQL script and print an analysis guide or JSON export"
  | verify => "Check that chunks cover every line of a script exactly once"
  | index => "Chunk every SQL script below a directory and store the chunks"
  | search => "Keyword search over the indexed chunks of a directory"
  | serve => "Run the MCP server on stdio"
  | version => "Print version and build information"
  | help => "Help about any command"
  | completion => "Generate the autocompletion script for the specified shell"

def programDescription : List Text := Text.ofStrings [
  "sqlchunker splits long T-SQL style scripts and stored procedures into",
  "logically coherent, size-bounded chunks, each annotated with its type,",
  "complexity, tables, variables and dependencies on earlier chunks.",
  "",
  "Chunks can be rendered as a markdown analysis guide or a JSON export,",
  "indexed for keyword search, or served to MCP clients over stdio."]

def description : Command → List Text
  | analyze => Text.ofStrings [
      "Analyze splits one SQL script into logical chunks and renders them.",
      "",
      "Examples:",
      "  # Markdown analysis guide on stdout",
      "  sqlchunker analyze procs/close_period.sql",
      "",
      "  # JSON export with smaller chunks",
      "  sqlchunker analyze procs/close_period.sql --format json --max-size 80 --output close_period.json"]
  | verify => Text.ofStrings [
      "Verify checks chunk line ranges for gaps and overlaps.",
      "",
      "FILE may be a SQL script (.sql), which is chunked and checked, a JSON export",
      "(.json) or a rendered markdown guide. For exports and guides the script",
      "length comes from --script or --total-lines; without either, only gaps and",
      "overlaps up to the last chunk are reported.",
      "",
      "The command exits non-zero when the check fails."]
  | index => Text.ofStrings [
      "Index walks DIR (default: the working directory), chunks every script",
      "matching the include patterns and stores the chunks for searching.",
      "",
      "Scripts whose content and chunking strategy are unchanged since the last",
      "run are skipped; scripts that disappeared are removed from the index.",
      "",
      "Examples:",
      "  sqlchunker index ./db",
      "  sqlchunker index ./db --ignore \"**/archive/**\" --force"]
  | search => Text.ofStrings [
      "Search ranks the stored chunks of an indexed directory by BM25 relevance.",
      "Each query word is matched on its own.",
      "",
      "Examples:",
      "  sqlchunker search ./db Inventory",
      "  sqlchunker search ./db payment refund --type modification --table dbo.Payments"]
  | serve => Text.ofStrings [
      "Serve exposes analyze_sql, verify_coverage, index_scripts, search_chunks",
      "and get_status to MCP clients over stdin/stdout. Logs go to stderr.",
      "",
      "Client configuration:",
      "  \x7b",
      "    \"mcpServers\": \x7b",
      "      \"sqlchunker\": \x7b",
      "        \"command\": \"/usr/local/bin/sqlchunker\",",
      "        \"args\": [\"serve\"]",
      "      \x7d",
      "    \x7d",
      "  \x7d"]
  | help => Text.ofStrings [
      "Help provides help for any command in the application.",
      "Simply type sqlchunker help [path to command] for full details."]
  | completion => Text.ofStrings [
      "Generate the autocompletion script for sqlchunker for the specified shell.",
      "See each sub-command's help for details on how to use the generated script."]
  | version => [version.summary]

def nameLines (names : List (Text × Text)) : List Text :=
  names.map fun ((name, about) : Text × Text) =>
    let gap : Text := List.replicate (12 - name.length) 0x20
    ("  " : Text) ++ name ++ gap ++ about

def commandLines : List Text :=
  nameLines ((all.mergeSort fun a b => !Text.before b.name a.name).map fun c => (c.name, c.summary))

def shellLines : List Text :=
  nameLines ((Text.ofStrings ["bash", "fish", "powershell", "zsh"]).map fun shell =>
    (shell, ("Generate the autocompletion script for " : Text) ++ shell))

def under (heading : String) (lines : List Text) : List Text :=
  [] :: Text.ofString heading :: lines

def commonFlagLines : List Text :=
  under "Global Flags:" (Flag.lines commonFlags)

def callLines (call : Text) : List Text :=
  [Text.ofString "Usage:", ("  " : Text) ++ call]

def helpHint (path : Text) : Text :=
  "Use \"" ++ path ++ " [command] --help\" for more information about a command."

def groupLines (path : Text) (commands flags : List Text) : List Text :=
  callLines (path ++ " [command]") ++ under "Available Commands:" commands ++ flags ++
  [[], helpHint path]

def usageLines : Option Command → List Text
  | none =>
    groupLines programName commandLines
      (under "Flags:" (Flag.lines (commonFlags ++ [helpFlag programName, versionFlag])))
  | some completion =>
    groupLines (programName ++ " " ++ completion.name) shellLines
      (under "Flags:" (Flag.lines completion.localFlags) ++ commonFlagLines)
  | some c =>
    callLines (programName ++ " " ++ c.synopsis ++ " [flags]") ++
    under "Flags:" (Flag.lines c.localFlags) ++ commonFlagLines

def textOfLines (lines : List Text) : Text :=
  lines.flatMap fun line => line ++ "\n"

def helpText (topic : Option Command) : Text :=
  textOfLines ((topic.map description).getD programDescription ++ [[]] ++ usageLines topic)

/-- Words between grave accents where they can stand there. -/
def accented (t : Text) : Text :=
  if t.isValid && t.all fun b => 0x20 ≤ b && b != 0x60 && b != 0x7F then 0x60 :: t ++ [0x60]
  else t.quoted

def helpOn (words : List Text) : Text :=
  match words with
  | [] => helpText none
  | name :: _ =>
    match ofName? name with
    | some c => helpText (some c)
    | none =>
      "Unknown help topic [" ++ Text.join " " (words.map accented) ++ "]\n" ++
        textOfLines (usageLines none)

end Command

end ScriptAtlas
