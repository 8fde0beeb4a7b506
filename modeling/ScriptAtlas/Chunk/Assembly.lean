import ScriptAtlas.Chunk.Basic
import ScriptAtlas.Cut.Division

/-!
Chunks from classified lines: the facts of the lines are gathered, the dominant kind is chosen, and
oversized blocks become several chunks that name the block they were cut from.
-/

namespace ScriptAtlas

open Pattern

/-- Names of several lines, without repeats up to case, in the first spelling seen. -/
def gatherNames (names : List Text) : List Text :=
  (names.foldl (fun (kept : List (Text × Text)) name =>
    let key := name.upper
    if kept.any fun (known, _) => known == key then kept else kept ++ [(key, name)]) []).map Prod.snd

/-- Names in the byte order of their upper-cased form. -/
def sortNames (names : List Text) : List Text :=
  names.mergeSort fun a b => !Text.before b.upper a.upper

namespace ChunkKind

def computing : Pattern :=
  (byteIn "+-*/" ++ lit "=") |||
  ((edge ++ (lit "SET" ++ (gap ++ (lit "@" ++ (some1 wordByte ++ (anyGap ++ (lit "=" ++ (anything ++
    byteIn "+-*/%")))))))) |||
  (edge ++ (oneOf ["SUM", "AVG", "COUNT"] ++ (anyGap ++ lit "("))))

def checking : Pattern :=
  (edge ++ (lit "IS" ++ (gap ++ (maybe (lit "NOT" ++ gap) ++ (lit "NULL" ++ edge))))) |||
  ((edge ++ (lit "EXISTS" ++ (anyGap ++ lit "("))) ||| oneOf ["<=", ">=", "<>", "!="])

def signalled (kind : ChunkKind) (l : Line) : Bool :=
  let operation (tags : List Text) : Bool := tags.any l.hasOperation
  let control (words : List Text) : Bool := words.any l.hasControl
  match kind with
  | declaration => !l.declared.isEmpty
  | transaction => operation ["BEGIN TRANSACTION", "COMMIT", "ROLLBACK", "SAVE TRANSACTION"]
  | errorHandling => control ["TRY", "CATCH"]
  | loop => control ["WHILE"]
  | conditional => control ["IF", "ELSE", "CASE"]
  | cursor => operation ["CURSOR", "FETCH", "DEALLOCATE"]
  | dynamicSql => operation ["DYNAMIC_EXEC"]
  | modification => operation ["INSERT", "UPDATE", "DELETE", "MERGE", "TRUNCATE"]
  | retrieval => operation ["SELECT"]
  | calculation => computing.occurs l.code
  | validation => checking.occurs l.code
  | general | unknown _ _ => false

def dominant (lines : List Line) : ChunkKind :=
  (priority.find? fun kind => lines.any (signalled kind)).getD general

end ChunkKind

namespace Chunk

def ofLines (s : Script) (lo hi : Nat) : Chunk :=
  let lines := s.slice lo hi
  let content := Text.join "\n" (lines.map Line.raw)
  { start := lo + 1
    stop := hi
    content := content
    hash := Digest.ofText content
    tokens := estimate content
    kind := ChunkKind.dominant lines
    complexity := s.weight lo hi
    operations := sortNames (gatherNames (lines.flatMap Line.operations))
    declared := sortNames (gatherNames (lines.flatMap Line.declared))
    used := sortNames (gatherNames (lines.flatMap Line.used))
    tables := sortNames (gatherNames (lines.flatMap Line.tables))
    control := sortNames (gatherNames (lines.flatMap Line.control))
    business := gatherNames (lines.flatMap Line.business) }

end Chunk

namespace Divider

/-- Why a block was divided: the ceilings it breaks and where it was cut. -/
def reason (d : Divider) (b : Block) (sources : List CutSource) : Text :=
  d.trigger b.start b.stop ++
    if sources.isEmpty then []
    else ("; split at " : Text) ++ Text.join ", " (sources.map CutSource.name)

/-- Chunks of the parts of a block, numbered from `ordinal` on. -/
def partChunks (d : Divider) (part : Part) : Int → List Block → List Chunk
  | _, [] => []
  | ordinal, p :: rest =>
    { Chunk.ofLines d.script p.start p.stop with part := some { part with ordinal := ordinal } } ::
      partChunks d part (ordinal + 1) rest

def chunksOf (d : Divider) (b : Block) : List Chunk :=
  if !d.isOversized b.start b.stop then [Chunk.ofLines d.script b.start b.stop]
  else
    let (parts, sources) := d.parts b.start b.stop
    -- A block without a safe cut stays whole, and nothing calls it a part.
    if parts.length < 2 then [Chunk.ofLines d.script b.start b.stop]
    else
      d.partChunks
        { parentKind := ChunkKind.dominant (d.script.slice b.start b.stop)
          parentStart := b.start + 1
          parentEnd := b.stop
          ordinal := 1
          total := parts.length
          reason := d.reason b sources } 1 parts

end Divider

end ScriptAtlas
