import ScriptAtlas.Chunk.Description
import ScriptAtlas.Chunk.Link

/-!
The chunk sequence of a script: plan, division, links and descriptions. Empty input has no chunks, and
every other input has chunks that cover each line exactly once.
-/

namespace ScriptAtlas

namespace Script

/-- The chunks of classified lines. Missing sizes take their defaults. -/
def chunks (s : Script) (z : Sizing) : List Chunk :=
  let divider : Divider := ⟨z.normalized, s⟩
  let chunks := s.plan.flatMap divider.chunksOf
  (Chunk.linkDependencies (Chunk.linkContinuations (Chunk.numberFrom 1 chunks))).map Chunk.described

end Script

def chunkLines (lines : List Text) (z : Sizing) : List Chunk :=
  (Script.ofLines lines).chunks z

def chunkContent (content : Text) (z : Sizing) : List Chunk :=
  chunkLines (Script.splitLines content) z

end ScriptAtlas
