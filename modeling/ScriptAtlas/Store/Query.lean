import ScriptAtlas.Text.Blank
import ScriptAtlas.Text.CharClass

/-!
Search expressions. Every word of a query that has a letter or digit becomes a quoted phrase, so
operators and punctuation lose their meaning; phrases are joined by `OR`.
-/

namespace ScriptAtlas.Query

def quoteMark : UInt8 := 0x22

def isSearchable (word : Text) : Bool :=
  word.chars.any Text.isLetterOrDigit

def terms (query : Text) : List Text :=
  query.fields.filter isSearchable

/-- A word in quotes; a quote inside is written twice. -/
def quotedTerm (word : Text) : Text :=
  quoteMark :: word.replace [quoteMark] [quoteMark, quoteMark] ++ [quoteMark]

def expression (query : Text) : Text :=
  Text.join " OR " ((terms query).map quotedTerm)

end ScriptAtlas.Query
