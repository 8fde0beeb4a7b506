import ScriptAtlas.Guide.Export
import ScriptAtlas.Guide.Format
import ScriptAtlas.Guide.Markdown

/-!
Rendering chunks in a chosen format.
-/

namespace ScriptAtlas.Guide

def render (format : Format) (chunks : List Chunk) (z : Sizing) : Except FormatError Text :=
  match format with
  | .markdown => .ok (markdown chunks z)
  | .json => .ok (Export.render chunks z)
  | .unknown name => .error ⟨name⟩

end ScriptAtlas.Guide
