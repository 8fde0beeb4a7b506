import ScriptAtlas.Json.Basic
import ScriptAtlas.Text.Quoted

/-!
Writing JSON, on one line or indented by two blanks a level. Characters that are special in web pages
are escaped as well, and a stray byte becomes an escaped U+FFFD.
-/

namespace ScriptAtlas.Json

def escapeGlyph : Text.Glyph → Text
  | .stray _ => "\\ufffd"
  | .char c =>
    match c with
    | '"' => "\\\""
    | '\\' => "\\\\"
    | '\x08' => "\\b"
    | '\x0C' => "\\f"
    | '\n' => "\\n"
    | '\r' => "\\r"
    | '\t' => "\\t"
    | c =>
      if c.toNat < 0x20 || c == '<' || c == '>' || c == '&' || c == '\u2028' || c == '\u2029' then
        "\\u" ++ Text.hex 4 c.toNat
      else Text.ofChars [c]

def quote (t : Text) : Text :=
  "\"" ++ t.glyphs.flatMap escapeGlyph ++ "\""

def openBrace : Text := [0x7B]

def closeBrace : Text := [0x7D]

mutual

def compact : Json → Text
  | .null => "null"
  | .bool true => "true"
  | .bool false => "false"
  | .number literal => literal
  | .string t => quote t
  | .array items => "[" ++ compactItems items ++ "]"
  | .object members => openBrace ++ compactMembers members ++ closeBrace

def compactItems : List Json → Text
  | [] => []
  | [item] => compact item
  | item :: rest => compact item ++ "," ++ compactItems rest

def compactMembers : List (Text × Json) → Text
  | [] => []
  | [(name, value)] => quote name ++ ":" ++ compact value
  | (name, value) :: rest => quote name ++ ":" ++ compact value ++ "," ++ compactMembers rest

end

def newLine (level : Nat) : Text :=
  0x0A :: List.replicate (2 * level) 0x20

mutual

/-- A value over several lines, the first of which stands at the given level. -/
def indentedAt (level : Nat) : Json → Text
  | .array items =>
    if items.isEmpty then "[]"
    else "[" ++ indentedItems (level + 1) items ++ newLine level ++ "]"
  | .object members =>
    if members.isEmpty then openBrace ++ closeBrace
    else openBrace ++ indentedMembers (level + 1) members ++ newLine level ++ closeBrace
  | value => compact value

def indentedItems (level : Nat) : List Json → Text
  | [] => []
  | [item] => newLine level ++ indentedAt level item
  | item :: rest => newLine level ++ indentedAt level item ++ "," ++ indentedItems level rest

def indentedMembers (level : Nat) : List (Text × Json) → Text
  | [] => []
  | [(name, value)] => newLine level ++ quote name ++ ": " ++ indentedAt level value
  | (name, value) :: rest =>
    newLine level ++ quote name ++ ": " ++ indentedAt level value ++ "," ++
      indentedMembers level rest

end

def indented (j : Json) : Text :=
  indentedAt 0 j

end ScriptAtlas.Json
