import ScriptAtlas.Command.Run

/-!
The command line. What a command may look at is read first, then the command runs, and then its
output is shown and its files are written.
-/

namespace ScriptAtlas

def toBytes (t : Text) : ByteArray :=
  ⟨t.toArray⟩

def readBytes (path : String) : IO Text := do
  return (← IO.FS.readBinFile path).toList

/-- Adds a file, or an empty directory, to a tree. What is missing is looked for above. -/
partial def addPath (tree : FileTree) (path : Text) : IO FileTree := do
  match ← (IO.FS.realPath path.toString).toBaseIO with
  | .ok place =>
    if ← place.isDir then return tree.makeDirectory path
    else return tree.write path (← readBytes path.toString)
  | .error _ =>
    if path == Path.directory path then return tree else addPath tree (Path.directory path)

partial def addBelow (tree : FileTree) (path : Text) : IO FileTree := do
  match ← (IO.FS.realPath path.toString).toBaseIO with
  | .ok place =>
    if ← place.isDir then
      let entries ← place.readDir
      entries.foldlM
        (fun tree entry => addBelow tree (Path.join [path, Text.ofString entry.fileName]))
        (tree.makeDirectory path)
    else addPath tree path
  | .error _ => addPath tree path

def readEnvironment : IO (List (Text × Text)) := do
  let found ← SettingsSources.variableNames.mapM fun name => do
    return (← IO.getEnv name.toString).map fun value => (name, Text.ofString value)
  return found.filterMap id

def surround (call : Command.Call) : IO Surroundings := do
  let here ← IO.currentDir
  let home ← IO.getEnv "HOME"
  let start : Surroundings := {
    tree := FileTree.empty.makeDirectory (Text.ofString here.toString)
    here := Text.ofString here.toString
    home := Text.ofString (home.getD "")
    environment := ← readEnvironment
    analysis := Text.ofNat (← IO.monoNanosNow) }
  match call with
  | .run c a =>
    let settings := Path.join [Command.settingsDirectory start a, Text.ofString ".sqlchunker"]
    let start := { start with tree := ← addBelow start.tree settings }
    let tree ← (Command.touchedPaths start c a).foldlM addPath start.tree
    let tree ←
      match Command.sourceDirectory? start c a with
      | some root => addBelow tree root
      | none => pure tree
    return { start with tree := tree }
  | _ => return start

def seconds (milliseconds : Nat) : Text :=
  Number.fixed 1 (milliseconds.toFloat / 1000.0) ++ "s"

def keepFile (file : WrittenFile) : IO Unit := do
  IO.FS.createDirAll (Path.directory file.path).toString
  IO.FS.writeBinFile file.path.toString (toBytes file.content)

def conclude (outcome : CommandOutcome) (elapsed : Text) : IO UInt32 := do
  let out ← IO.getStdout
  let err ← IO.getStderr
  let colored := outcome.color.isColored (← out.isTty)
  out.write (toBytes (outcome.output.render colored elapsed))
  err.write (toBytes (outcome.notes.render colored elapsed))
  outcome.written.forM keepFile
  match outcome.failure with
  | none => return 0
  | some e =>
    let message : Display := [.styled .alert "Error:", .plain (" " ++ e.message ++ "\n")]
    err.write (toBytes (message.render colored elapsed))
    return 1

end ScriptAtlas

open ScriptAtlas in
def main (arguments : List String) : IO UInt32 := do
  let given := arguments.map Text.ofString
  let began ← IO.monoMsNow
  match Command.read given with
  | .error e => conclude { failure := some (.usage e) } []
  | .ok call =>
    let surroundings ← surround call
    let outcome ← IO.lazyPure fun _ => Command.perform surroundings call
    conclude outcome (seconds ((← IO.monoMsNow) - began))
