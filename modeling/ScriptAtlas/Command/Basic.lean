import ScriptAtlas.Command.Flag
import ScriptAtlas.Text.Case
import ScriptAtlas.Text.Distance

/-!
The commands with their flags, and which of them a command line calls. The command is the first word
that is neither a flag nor the value of one; all other words are its arguments.
-/

namespace ScriptAtlas

inductive Command where
  | analyze
  | verify
  | index
  | search
  | serve
  | version
  | help
  | completion
  deriving DecidableEq, Repr

inductive Arity where
  | exactly (n : Nat)
  | atMost (n : Nat)
  | atLeast (n : Nat)
  | none
  deriving DecidableEq, Repr

inductive UsageError where
  | unknownCommand (name : Text) (similar : List Text)
  | flag (e : FlagError)
  | unexpected (argument : Text) (command : Text)
  | tooManyOrFew (expected received : Nat)
  | tooMany (most received : Nat)
  | tooFew (least received : Nat)
  deriving DecidableEq, Repr

def programName : Text := "sqlchunker"

def UsageError.hint (similar : List Text) : Text :=
  if similar.isEmpty then []
  else
    let lines : List Text := similar.map fun name => ("\t" : Text) ++ name ++ "\n"
    ("\n\nDid you mean this?\n" : Text) ++ lines.flatten

def UsageError.message : UsageError → Text
  | unknownCommand name similar =>
    "unknown command " ++ name.quoted ++ " for " ++ programName.quoted ++ hint similar
  | flag e => e.message
  | unexpected argument command =>
    "unknown command " ++ argument.quoted ++ " for " ++ (programName ++ " " ++ command).quoted
  | tooManyOrFew expected received =>
    "accepts " ++ Text.ofNat expected ++ " arg(s), received " ++ Text.ofNat received
  | tooMany most received =>
    "accepts at most " ++ Text.ofNat most ++ " arg(s), received " ++ Text.ofNat received
  | tooFew least received =>
    "requires at least " ++ Text.ofNat least ++ " arg(s), only received " ++ Text.ofNat received

namespace Command

def all : List Command :=
  [analyze, verify, index, search, serve, version, help, completion]

def name : Command → Text
  | analyze => "analyze"
  | verify => "verify"
  | index => "index"
  | search => "search"
  | serve => "serve"
  | version => "version"
  | help => "help"
  | completion => "completion"

def ofName? (name : Text) : Option Command :=
  all.find? fun c => c.name == name

/-! ### Flags -/

def word (name about : String) : Flag where
  name := name
  kind := .word
  about := about

def number (name about : String) : Flag where
  name := name
  kind := .number
  about := about

def switch (name about : String) : Flag where
  name := name
  kind := .switch
  about := about

def list (name about : String) : Flag where
  name := name
  kind := .list
  about := about

def lettered (f : Flag) (letter : Char) : Flag :=
  { f with letter := some letter.toNat.toUInt8 }

/-- A flag whose value without it is shown. -/
def standing (f : Flag) (value : FlagValue) : Flag :=
  { f with standard := some value }

def commonFlags : List Flag := [
  word "project" "directory holding .sqlchunker/config.yml (default is the working directory)",
  word "db" "index database path (default ~/.sqlchunker/index.db)",
  standing (word "color" "colorize output (auto|on|off)") (.word "auto"),
  lettered (switch "verbose" "verbose output") 'v']

def helpFlag (topic : Text) : Flag where
  name := "help"
  letter := some 0x68
  kind := .switch
  about := "help for " ++ topic

def versionFlag : Flag where
  name := "version"
  kind := .switch
  about := "version for " ++ programName

def sizingFlags : List Flag := [
  word "strategy" "chunking strategy (strict_logical|size_constrained|hybrid)",
  number "target-size" "preferred lines per sub-chunk",
  number "min-size" "sub-chunks shorter than this are not cut",
  number "max-size" "block size in lines above which a block is subdivided",
  number "force-threshold" "hybrid strategy: blocks above this size are always subdivided",
  number "max-complexity" "block complexity above which a block is subdivided",
  number "max-depth" "maximum subdivision recursion depth"]

def ownFlags : Command → List Flag
  | analyze => sizingFlags ++ [
      standing (lettered (word "format" "output format (markdown|json)") 'f') (.word "markdown"),
      lettered (word "output" "write the report to this file instead of stdout") 'o']
  | verify => sizingFlags ++ [
      word "script" "the SQL script an export or guide describes",
      standing (number "total-lines" "line count of the script an export or guide describes")
        (.number (-1))]
  | index => sizingFlags ++ [
      switch "force" "re-chunk every script even when unchanged",
      lettered (switch "quiet" "disable progress output") 'q',
      number "workers" "concurrent chunking workers (default: number of CPUs)",
      list "include" "glob patterns of scripts to index",
      list "ignore" "glob patterns to skip"]
  | search => [
      list "type" "keep only these chunk types",
      word "table" "keep only chunks that access this table",
      number "min-complexity" "keep only chunks at or above this complexity",
      word "files" "keep only scripts matching this glob",
      standing (lettered (number "limit" "maximum number of results (1-100)") 'n') (.number 10),
      switch "content" "print the chunk source"]
  | serve => sizingFlags ++ [number "workers" "concurrent chunking workers for index_scripts"]
  | version | help | completion => []

def localFlags (c : Command) : List Flag :=
  c.ownFlags ++ [helpFlag c.name]

def flags (c : Command) : List Flag :=
  c.localFlags ++ commonFlags

def settingsKeys : List (Text × Text) := [
  ("strategy", "chunking.strategy"),
  ("target-size", "chunking.target_size"),
  ("min-size", "chunking.min_size"),
  ("max-size", "chunking.max_size"),
  ("force-threshold", "chunking.force_threshold"),
  ("max-complexity", "chunking.max_complexity"),
  ("max-depth", "chunking.max_depth"),
  ("include", "paths.include"),
  ("ignore", "paths.ignore"),
  ("workers", "index.workers"),
  ("db", "storage.db_path")]

/-! ### Arguments -/

def arity : Command → Arity
  | analyze | verify => .exactly 1
  | index => .atMost 1
  | search => .atLeast 2
  | serve | version | completion => .none
  | help => .atLeast 0

def checkArguments (c : Command) (arguments : List Text) : Except UsageError Unit :=
  let n := arguments.length
  match c.arity, arguments with
  | .exactly k, _ => if n == k then .ok () else .error (.tooManyOrFew k n)
  | .atMost k, _ => if n ≤ k then .ok () else .error (.tooMany k n)
  | .atLeast k, _ => if k ≤ n then .ok () else .error (.tooFew k n)
  | .none, argument :: _ => .error (.unexpected argument c.name)
  | .none, [] => .ok ()

/-! ### Command lines -/

/-- Whether a name may have been meant: it differs in at most two places, or goes on as typed. -/
def isSimilar (typed name : Text) : Bool :=
  Text.distance typed.lower name.lower ≤ 2 || name.lower.startsWith typed.lower

def similar (typed : Text) : List Text :=
  ((all.filter (· != help)).map Command.name).filter (isSimilar typed)

inductive Call where
  | help (topic : Option Command)
  | version
  | run (command : Command) (arguments : Arguments)
  deriving DecidableEq, Repr

def readBare (given : List Text) : Except UsageError Call :=
  match Flag.read (commonFlags ++ [helpFlag programName, versionFlag]) given with
  | .error e => .error (.flag e)
  | .ok a => .ok (if !a.switch "help" && a.switch "version" then .version else .help none)

def readArguments (c : Command) (given : List Text) : Except UsageError Call :=
  match Flag.read c.flags given with
  | .error e => .error (.flag e)
  | .ok a =>
    if a.switch "help" || c == completion then .ok (.help (some c))
    else (c.checkArguments a.rest).map fun _ => .run c a

def read (given : List Text) : Except UsageError Call :=
  match Flag.words commonFlags given with
  | [] => readBare given
  | typed :: _ =>
    match ofName? typed with
    | some c => c.readArguments (Flag.without commonFlags typed given)
    | none => .error (.unknownCommand typed (similar typed))

end Command

end ScriptAtlas
