import ScriptAtlas.Chunk.Basic

/-!
Coverage: whether line ranges tile a script, judged from the ranges alone. Sums are taken as 64-bit
numbers.
-/

namespace ScriptAtlas

/-- Lines `first` to `last`, both included, counted from one. -/
structure LineRange where
  first : Int
  last : Int
  deriving DecidableEq, Repr

namespace LineRange

/-- By first line, then by last line. -/
def notAfter (a b : LineRange) : Bool :=
  a.first < b.first || (a.first == b.first && a.last ≤ b.last)

def size (r : LineRange) : Int :=
  wrap64 (r.last - r.first + 1)

def text (r : LineRange) : Text :=
  Text.ofInt r.first ++ "-" ++ Text.ofInt r.last

end LineRange

structure Coverage where
  ranges : List LineRange
  gaps : List LineRange
  /-- Neighbouring ranges that share a line. -/
  overlaps : List (LineRange × LineRange)
  /-- The sum of the range lengths. -/
  covered : Int
  expected : Int
  deriving DecidableEq, Repr

namespace Coverage

def isPerfect (c : Coverage) : Bool :=
  c.gaps.isEmpty && c.overlaps.isEmpty && c.covered == c.expected

/-- The gaps in front of ascending ranges and after the last one, up to `total`; `highest` is the
highest line covered so far. -/
def gapsFrom (total : Int) : Int → List LineRange → List LineRange
  | highest, [] => if highest < total then [⟨wrap64 (highest + 1), total⟩] else []
  | highest, r :: rest =>
    let next := wrap64 (highest + 1)
    if next < r.first then ⟨next, wrap64 (r.first - 1)⟩ :: gapsFrom total (max highest r.last) rest
    else gapsFrom total (max highest r.last) rest

/-- Ascending neighbours of which the second begins before the first ends. -/
def overlapsOf : List LineRange → List (LineRange × LineRange)
  | a :: b :: rest =>
    if b.first ≤ a.last then (a, b) :: overlapsOf (b :: rest) else overlapsOf (b :: rest)
  | _ => []

/-- Checks that ranges, in any order, cover lines 1 to `total` exactly once. -/
def ofRanges (ranges : List LineRange) (total : Int) : Coverage :=
  let sorted := ranges.mergeSort LineRange.notAfter
  { ranges := sorted
    gaps := gapsFrom total 0 sorted
    overlaps := overlapsOf sorted
    covered := sorted.foldl (fun sum r => wrap64 (sum + r.size)) 0
    expected := total }

end Coverage

def Chunk.ranges (chunks : List Chunk) : List LineRange :=
  chunks.map fun c => ⟨c.start, c.stop⟩

end ScriptAtlas
