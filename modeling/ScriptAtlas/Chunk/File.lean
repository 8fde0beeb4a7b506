import ScriptAtlas.Chunk.Coverage
import ScriptAtlas.Chunk.Sequence
import ScriptAtlas.Files.Tree

/-!
The chunks of a script in a file.
-/

namespace ScriptAtlas

structure ChunkFileError where
  path : Text
  cause : FileError
  deriving DecidableEq, Repr

def ChunkFileError.message (e : ChunkFileError) : Text :=
  "failed to chunk " ++ e.path ++ ": failed to read file: " ++ e.cause.message

structure ChunkedScript where
  reading : Reading
  chunks : List Chunk

def ChunkedScript.ofContent (content : Text) (z : Sizing) : ChunkedScript :=
  let reading := Script.read (Script.splitLines content)
  ⟨reading, reading.script.chunks z⟩

def ChunkedScript.coverage (c : ChunkedScript) : Coverage :=
  Coverage.ofRanges (Chunk.ranges c.chunks) c.reading.script.size

/-- The chunks of the script at a path, as seen from a directory. -/
def ChunkedScript.ofFile (tree : FileTree) (here path : Text) (z : Sizing) :
    Except ChunkFileError ChunkedScript :=
  match tree.readFrom here path with
  | .ok content => .ok (ofContent content z)
  | .error e => .error ⟨path, e⟩

end ScriptAtlas
