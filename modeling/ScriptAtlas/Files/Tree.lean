import ScriptAtlas.Files.Path

/-!
A tree of files and directories, and what happens on the way to a path in it.
-/

namespace ScriptAtlas

inductive FileTree where
  | file (content : Text)
  | lockedFile
  | directory (entries : List (Text × FileTree))
  deriving Repr

inductive FileCause where
  | missing
  | notDirectory
  | isDirectory
  | denied
  | occupied
  deriving DecidableEq, Repr

def FileCause.message : FileCause → Text
  | missing => "no such file or directory"
  | notDirectory => "not a directory"
  | isDirectory => "is a directory"
  | denied => "permission denied"
  | occupied => "file exists"

structure FileError where
  action : Text
  path : Text
  cause : FileCause
  deriving DecidableEq, Repr

def FileError.message (e : FileError) : Text :=
  e.action ++ " " ++ e.path ++ ": " ++ e.cause.message

namespace FileTree

def empty : FileTree :=
  .directory []

def isDirectory : FileTree → Bool
  | .directory _ => true
  | _ => false

def child? (entries : List (Text × FileTree)) (name : Text) : Option FileTree :=
  (entries.find? fun (n, _) => n == name).map Prod.snd

/-- The entries with one put in place of the entry of its name, or at the end. -/
def putEntry (name : Text) (node : FileTree) : List (Text × FileTree) → List (Text × FileTree)
  | [] => [(name, node)]
  | (n, old) :: rest => if n == name then (n, node) :: rest else (n, old) :: putEntry name node rest

/-- Goes down by names; `above` holds the directories passed, the last one first. -/
def descend (above : List FileTree) (here : FileTree) : List Text → Except FileCause FileTree
  | [] => .ok here
  | name :: rest =>
    match here with
    | .file _ | .lockedFile => .error .notDirectory
    | .directory entries =>
      if Path.isSelf name then descend above here rest
      else if Path.isParent name then
        match above with
        | [] => descend [] here rest
        | parent :: higher => descend higher parent rest
      else
        match child? entries name with
        | none => .error .missing
        | some next => descend (here :: above) next rest

def at? (tree : FileTree) (path : Text) : Except FileCause FileTree :=
  if path.isEmpty then .error .missing else descend [] tree (Path.names path)

/-- The same, with the failure named after an action. -/
def inspect (tree : FileTree) (action path : Text) : Except FileError FileTree :=
  match tree.at? path with
  | .ok node => .ok node
  | .error cause => .error ⟨action, path, cause⟩

def read (tree : FileTree) (path : Text) : Except FileError Text :=
  match tree.inspect "open" path with
  | .error e => .error e
  | .ok (.file content) => .ok content
  | .ok .lockedFile => .error ⟨"open", path, .denied⟩
  | .ok (.directory _) => .error ⟨"read", path, .isDirectory⟩

def placeFrom (here path : Text) : Text :=
  if path.isEmpty || Path.isAbsolute path then path else here ++ Path.slash :: path

/-- The content of a file whose path is seen from a directory; the path is reported as given. -/
def readFrom (tree : FileTree) (here path : Text) : Except FileError Text :=
  match tree.read (placeFrom here path) with
  | .ok content => .ok content
  | .error e => .error { e with path := path }

def writeFault (tree : FileTree) (here path : Text) : Option FileError :=
  let names := Path.names (placeFrom here path)
  let kept := (names.reverse.dropWhile List.isEmpty).reverse
  let name := (kept.getLast?).getD []
  let cause : Option FileCause :=
    match descend [] tree kept.dropLast with
    | .error cause => some cause
    | .ok (.file _) | .ok .lockedFile => some .notDirectory
    | .ok (.directory entries) =>
      if path.isEmpty then some .missing
      else if kept.length != names.length || Path.isSelf name || Path.isParent name then
        some .isDirectory
      else
        match child? entries name with
        | some (.directory _) => some .isDirectory
        | some .lockedFile => some .denied
        | _ => none
  cause.map fun cause => ⟨"open", path, cause⟩

/-- The paths that a path passes, the shortest first. -/
def ancestors (path : Text) : List Text :=
  let names := Path.names path
  ((List.range names.length).map fun n => Text.join [Path.slash] (names.take n)).filter
    fun above => !above.isEmpty

/-- Why the directories of a path as seen from a directory cannot be made, if there is a reason: a file
stands at it, or on the way to it. -/
def directoryFault (tree : FileTree) (here path : Text) : Option FileError :=
  match tree.at? (placeFrom here path) with
  | .ok (.directory _) => none
  | .ok _ => some ⟨"mkdir", path, .notDirectory⟩
  | .error _ =>
    ((ancestors path).find? fun above =>
      match tree.at? (placeFrom here above) with
      | .ok (.directory _) | .error _ => false
      | .ok _ => true).map fun above => ⟨"mkdir", above ++ [Path.slash], .occupied⟩

/-- The tree with a node at a path; directories on the way are made. -/
def put (node : FileTree) : List Text → FileTree → FileTree
  | [], _ => node
  | name :: rest, here =>
    let entries :=
      match here with
      | .directory entries => entries
      | .file _ | .lockedFile => []
    let below := (child? entries name).getD empty
    .directory (putEntry name (put node rest below) entries)

def write (tree : FileTree) (path content : Text) : FileTree :=
  put (.file content) (Path.straighten true [] (Path.names path)) tree

/-- The tree with a directory at a path, kept if it is there. -/
def makeDirectory (tree : FileTree) (path : Text) : FileTree :=
  match tree.at? path with
  | .ok (.directory _) => tree
  | _ => put empty (Path.straighten true [] (Path.names path)) tree

/-- The tree without what stands below the given names. -/
def erase : List Text → FileTree → FileTree
  | [], here => here
  | name :: rest, here =>
    match here with
    | .file _ | .lockedFile => here
    | .directory entries =>
      if rest.isEmpty then .directory (entries.filter fun (n, _) => n != name)
      else
        match child? entries name with
        | none => here
        | some below => .directory (putEntry name (erase rest below) entries)

def remove (tree : FileTree) (path : Text) : FileTree :=
  erase (Path.straighten true [] (Path.names path)) tree

def childPath (path name : Text) : Text :=
  if path.isEmpty then name else path ++ Path.slash :: name

mutual

/-- The files of a tree that may be read, with their relative paths. -/
def files (path : Text) : FileTree → List (Text × Text)
  | .file content => [(path, content)]
  | .lockedFile => []
  | .directory entries => filesIn path entries

def filesIn (path : Text) : List (Text × FileTree) → List (Text × Text)
  | [] => []
  | (name, node) :: rest => files (childPath path name) node ++ filesIn path rest

end

end FileTree

end ScriptAtlas
