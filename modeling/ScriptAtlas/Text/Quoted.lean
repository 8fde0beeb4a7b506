import ScriptAtlas.Text.Basic
import ScriptAtlas.Text.CharClass

/-!
Quoted text, as error messages show it: in double quotes, with escapes for the quote, the backslash
and everything that is not printable.
-/

namespace ScriptAtlas.Text

def hexDigit (n : Nat) : UInt8 :=
  if n < 10 then (0x30 + n).toUInt8 else (0x57 + n).toUInt8

def hex : Nat → Nat → Text
  | 0, _ => []
  | width + 1, n => hex width (n / 16) ++ [hexDigit (n % 16)]

def quoteGlyph : Glyph → Text
  | .stray b => "\\x" ++ hex 2 b.toNat
  | .char c =>
    match c with
    | '"' => "\\\""
    | '\\' => "\\\\"
    | '\x07' => "\\a"
    | '\x08' => "\\b"
    | '\x0C' => "\\f"
    | '\n' => "\\n"
    | '\r' => "\\r"
    | '\t' => "\\t"
    | '\x0B' => "\\v"
    | c =>
      if isPrintable c then ofChars [c]
      else if c.toNat < 0x80 then "\\x" ++ hex 2 c.toNat
      else if c.toNat < 0x10000 then "\\u" ++ hex 4 c.toNat
      else "\\U" ++ hex 8 c.toNat

def quoted (t : Text) : Text :=
  "\"" ++ t.glyphs.flatMap quoteGlyph ++ "\""

end ScriptAtlas.Text
