import ScriptAtlas.Json.Basic
import ScriptAtlas.Number.Literal

/-!
Arguments of tool calls. A value of another kind than asked for counts as missing.
-/

namespace ScriptAtlas.Json

def textOr (args : Json) (name : String) (fallback : Text) : Text :=
  match args.get? name with
  | some (.string t) => t
  | _ => fallback

/-- A whole number argument; fractions are cut off. -/
def intOr (args : Json) (name : String) (fallback : Int) : Int :=
  match args.get? name with
  | some (.number literal) => Number.truncated (Number.ofLiteral literal)
  | _ => fallback

def boolOr (args : Json) (name : String) (fallback : Bool) : Bool :=
  match args.get? name with
  | some (.bool b) => b
  | _ => fallback

def nonEmpty? : Json → Option Text
  | .string t => if t.isEmpty then none else some t
  | _ => none

/-- A list argument; what is no text, or empty, is left out. -/
def texts? (args : Json) (name : String) : Option (List Text) :=
  match args.get? name with
  | some (.array items) => some (items.filterMap nonEmpty?)
  | _ => none

end ScriptAtlas.Json
