import ScriptAtlas.Files.Tree
import ScriptAtlas.Text.Blank
import ScriptAtlas.Text.Quoted

/-!
Which files of a tree are scripts: those that some pattern includes and none ignores, outside hidden
directories. Directories that are ignored as a whole are not entered. What a pattern matches is left to a
library of patterns.
-/

namespace ScriptAtlas

/-- A library that compiles patterns into tests on paths, or says why it cannot. -/
abbrev GlobLibrary :=
  Text → Except Text (Text → Bool)

structure PathFilter where
  included : List (Text → Bool) := []
  ignored : List (Text → Bool) := []

structure PatternError where
  pattern : Text
  cause : Text
  deriving DecidableEq, Repr

def PatternError.message (e : PatternError) : Text :=
  "invalid pattern " ++ e.pattern.quoted ++ ": " ++ e.cause

namespace PathFilter

def defaultIncluded : List Text :=
  Text.ofStrings ["**/*.sql"]

def defaultIgnored : List Text :=
  Text.ofStrings ["**/node_modules/**", "**/vendor/**", "**/bin/**"]

/-- The forms of a pattern: `**/` in front matches at the root as well. -/
def variants (pattern : Text) : List Text :=
  let anywhere : Text := "**/"
  if pattern.startsWith anywhere then [pattern, pattern.drop anywhere.length] else [pattern]

def compilePattern (globs : GlobLibrary) (pattern : Text) : Except PatternError (List (Text → Bool)) :=
  let pattern := Text.trim pattern
  if pattern.isEmpty then .ok []
  else
    (variants pattern).mapM fun variant =>
      match globs variant with
      | .ok test => .ok test
      | .error cause => .error ⟨pattern, cause⟩

def compilePatterns (globs : GlobLibrary) (patterns : List Text) :
    Except PatternError (List (Text → Bool)) :=
  (patterns.mapM (compilePattern globs)).map List.flatten

/-- The filter of include and ignore patterns; without include patterns the default ones count. -/
def compile (globs : GlobLibrary) (included ignored : List Text) : Except PatternError PathFilter := do
  let included ← compilePatterns globs (if included.isEmpty then defaultIncluded else included)
  let ignored ← compilePatterns globs ignored
  return ⟨included, ignored⟩

def accepts (f : PathFilter) (path : Text) : Bool :=
  f.included.any (· path) && !f.ignored.any (· path)

/-- Whether a directory is ignored as a whole. -/
def skips (f : PathFilter) (path : Text) : Bool :=
  -- `bin/**` accepts `bin/` and means everything in it.
  f.ignored.any (· path) || f.ignored.any (· (path ++ [Path.slash]))

def isHidden (name : Text) : Bool :=
  name.head? == some 0x2E

mutual

def scriptsAt (f : PathFilter) (name path : Text) : FileTree → List Text
  | .file _ | .lockedFile => if f.accepts path then [path] else []
  | .directory entries =>
    if isHidden name || f.skips path then [] else scriptsBelow f path entries

def scriptsBelow (f : PathFilter) (path : Text) : List (Text × FileTree) → List Text
  | [] => []
  | (name, node) :: rest =>
    scriptsAt f name (FileTree.childPath path name) node ++ scriptsBelow f path rest

end

/-- The scripts of a tree in ascending order; a root that is a file is visited as `.`. -/
def scripts (f : PathFilter) : FileTree → List Text
  | .file _ | .lockedFile => if f.accepts "." then ["."] else []
  | .directory entries => Text.sort (f.scriptsBelow [] entries)

def discover (f : PathFilter) (tree : FileTree) (root : Text) : Except FileError (List Text) :=
  (tree.inspect "lstat" root).map f.scripts

end PathFilter

end ScriptAtlas
