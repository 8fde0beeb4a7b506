import ScriptAtlas.Text.Blank

/-!
The classification of one script line, and scripts as sequences of classified lines.
-/

namespace ScriptAtlas

/-- What is known about one source line. Lists are in detection order without repeats. -/
structure Line where
  index : Int := 0
  raw : Text := []
  trimmed : Text := []
  upper : Text := []
  /-- Upper-cased, with the contents of literals blanked and comments removed. -/
  code : Text := []
  isEmpty : Bool := false
  isComment : Bool := false
  isSectionMarker : Bool := false
  operations : List Text := []
  control : List Text := []
  declared : List Text := []
  used : List Text := []
  tables : List Text := []
  business : List Text := []
  /-- Openers minus closers. -/
  nesting : Int := 0
  parens : Int := 0
  weight : Nat := 0
  deriving DecidableEq, Repr

namespace Line

def number (l : Line) : Int :=
  l.index + 1

def isQuiet (l : Line) : Bool :=
  l.isEmpty || l.isComment

def isCode (l : Line) : Bool :=
  !l.isQuiet

def hasControl (l : Line) (word : Text) : Bool :=
  l.control.elem word

def hasOperation (l : Line) (tag : Text) : Bool :=
  l.operations.elem tag

def absent : Line where
  isEmpty := true

end Line

abbrev Script := Array Line

namespace Script

/-- The line at a position; beyond the end, an empty line. -/
def line (s : Script) (i : Nat) : Line :=
  s.getD i Line.absent

/-- The first of `count` lines from `i` on that holds code. -/
def firstCode (s : Script) : Nat → Nat → Option Nat
  | 0, _ => none
  | count + 1, i => if (s.line i).isCode then some i else firstCode s count (i + 1)

/-- The first code line in `[i, limit)`. -/
def nextCode (s : Script) (i limit : Nat) : Option Nat :=
  s.firstCode (min limit s.size - i) i

/-- The last code line in `[floor, stop)`. -/
def prevCode (s : Script) (floor : Nat) : Nat → Option Nat
  | 0 => none
  | i + 1 =>
    if i < floor then none
    else if (s.line i).isCode then some i
    else prevCode s floor i

/-- The sum of a measure over `count` lines from `i` on. -/
def total (s : Script) (measure : Line → Int) : Nat → Nat → Int
  | 0, _ => 0
  | count + 1, i => measure (s.line i) + total s measure count (i + 1)

def weightFrom (s : Script) : Nat → Nat → Nat
  | 0, _ => 0
  | count + 1, i => (s.line i).weight + weightFrom s count (i + 1)

def weight (s : Script) (lo hi : Nat) : Nat :=
  s.weightFrom (hi - lo) lo

def slice (s : Script) (lo hi : Nat) : List Line :=
  (s.toList.drop lo).take (hi - lo)

def isQuiet (s : Script) (lo hi : Nat) : Bool :=
  (s.firstCode (hi - lo) lo).isNone

end Script

end ScriptAtlas
