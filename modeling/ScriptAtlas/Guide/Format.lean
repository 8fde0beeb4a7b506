import ScriptAtlas.Text.Case
import ScriptAtlas.Text.Quoted

/-!
The forms in which a chunk sequence is rendered.
-/

namespace ScriptAtlas

inductive Format where
  | markdown
  | json
  | unknown (name : Text)
  deriving DecidableEq, Repr

structure FormatError where
  name : Text
  deriving DecidableEq, Repr

def FormatError.message (e : FormatError) : Text :=
  "unknown report format " ++ e.name.quoted

namespace Format

def name : Format → Text
  | markdown => "markdown"
  | json => "json"
  | unknown name => name

def ofName (name : Text) : Format :=
  if name == markdown.name then markdown else if name == json.name then json else unknown name

/-- The format of a name in any case; `md` stands for markdown. -/
def parse (name : Text) : Except FormatError Format :=
  if name.lower == "md" then .ok markdown
  else
    match ofName name.lower with
    | unknown _ => .error ⟨name⟩
    | format => .ok format

end Format

end ScriptAtlas
