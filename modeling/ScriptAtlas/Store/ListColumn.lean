import ScriptAtlas.Json.Reader
import ScriptAtlas.Json.Writer

/-!
Lists of texts held in one column, as JSON arrays of strings.
-/

namespace ScriptAtlas.ListColumn

def encode (values : List Text) : Text :=
  Json.compact (Json.ofTexts values)

/-- A string, or the empty text for null. -/
def element? : Json → Option Text
  | .string t => some t
  | .null => some []
  | _ => none

/-- The list of a column; an empty column and null hold none. -/
def decode? (column : Text) : Option (List Text) :=
  if column.isEmpty then some []
  else
    match Json.parse? column with
    | some .null => some []
    | some (.array items) => items.mapM element?
    | _ => none

end ScriptAtlas.ListColumn
