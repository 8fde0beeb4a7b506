import ScriptAtlas.Text.Case

/-!
Paths with `/` between their names, and their shortest equivalent form.
-/

namespace ScriptAtlas.Path

def slash : UInt8 := 0x2F

def isAbsolute (path : Text) : Bool :=
  path.head? == some slash

/-- The names of a path; empty ones stand where slashes follow each other or end it. -/
def names (path : Text) : List Text :=
  path.splitAt slash

def isSelf (name : Text) : Bool :=
  name.isEmpty || name == Text.ofString "."

def isParent (name : Text) : Bool :=
  name == Text.ofString ".."

/-- Names without detours; `kept` holds those before, last one first. -/
def straighten (absolute : Bool) (kept : List Text) : List Text → List Text
  | [] => kept.reverse
  | name :: rest =>
    if isSelf name then straighten absolute kept rest
    else if isParent name then
      match kept with
      | [] => straighten absolute (if absolute then [] else [name]) rest
      | last :: before =>
        if isParent last then straighten absolute (name :: kept) rest
        else straighten absolute before rest
    else straighten absolute (name :: kept) rest

/-- The shortest path to the same place: no empty or `.` names, and `..` only in front. -/
def clean (path : Text) : Text :=
  let absolute := isAbsolute path
  let joined := Text.join [slash] (straighten absolute [] (names path))
  if absolute then slash :: joined
  else if joined.isEmpty then "."
  else joined

/-- One path below another; empty ones do not count. -/
def join (parts : List Text) : Text :=
  match parts.filter fun part => !part.isEmpty with
  | [] => []
  | parts => clean (Text.join [slash] parts)

def absolute (here path : Text) : Text :=
  if isAbsolute path then clean path else join [here, path]

def base (path : Text) : Text :=
  if path.isEmpty then "."
  else
    match ((names path).filter fun name => !name.isEmpty).getLast? with
    | none => "/"
    | some name => name

def extension (path : Text) : Text :=
  let (after, rest) := path.reverse.span fun b => b != 0x2E && b != slash
  match rest with
  | 0x2E :: _ => 0x2E :: after.reverse
  | _ => []

/-- Whether a path ends in an extension, up to case. -/
def hasExtension (path expected : Text) : Bool :=
  Text.sameName (extension path) expected

def directory (path : Text) : Text :=
  clean ((path.reverse.dropWhile (· != slash)).reverse)

end ScriptAtlas.Path
