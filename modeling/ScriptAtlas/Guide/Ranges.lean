import ScriptAtlas.Chunk.Coverage
import ScriptAtlas.Text.Blank
import ScriptAtlas.Text.Pattern

/-!
Line ranges read off a rendered guide. Text inside fenced code is skipped.
-/

namespace ScriptAtlas.Guide

open Pattern

/-- `Lines: a-b`. -/
def rangePattern : Pattern :=
  lit "Lines: " ++ (mark (some1 (one Text.isDigit)) ++ (lit "-" ++ mark (some1 (one Text.isDigit))))

/-- The value of digits, if it is a 64-bit number. -/
def lineNumber? (digits : Text) : Option Int :=
  let n : Int := Text.digitsValue digits
  if n ≤ maxInt64 then some n else none

/-- The ranges on one line; those with numbers too large are left out. -/
def rangesOnLine (line : Text) : List LineRange :=
  (rangePattern.all line).filterMap fun hit =>
    match hit.marked with
    | [first, last] => do return ⟨← lineNumber? first, ← lineNumber? last⟩
    | _ => none

def isFence (line : Text) : Bool :=
  line.trim.startsWith "```"

def rangesFrom (fenced : Bool) : List Text → List LineRange
  | [] => []
  | line :: rest =>
    if isFence line then rangesFrom (!fenced) rest
    else if fenced then rangesFrom fenced rest
    else rangesOnLine line ++ rangesFrom fenced rest

def ranges (guide : Text) : List LineRange :=
  rangesFrom false (Text.splitAt 0x0A guide)

end ScriptAtlas.Guide
