import ScriptAtlas.Block.Plan
import ScriptAtlas.Chunk.Sizing

/-!
Where a block could be cut: section markers, changes of business function, closed nesting, groups of
units, branches and statements. A point `p` stands for a cut before line `p`.
-/

namespace ScriptAtlas

open Word

/-- What proposes a cut, in the order of consultation. -/
inductive CutSource where
  | sections
  | business
  | nesting
  | groups
  | branches
  | statements
  | forced
  deriving DecidableEq, Repr

def CutSource.name : CutSource → Text
  | sections => "section markers"
  | business => "business function changes"
  | nesting => "nesting boundaries"
  | groups => "logical block groups"
  | branches => "IF/ELSE boundaries"
  | statements => "statement groups"
  | forced => "forced statement grouping"

namespace Script

def positions (lo hi : Nat) : List Nat :=
  List.range' lo (hi - lo)

def sectionPoints (s : Script) (lo hi : Nat) : List Nat :=
  (positions (lo + 1) hi).filter fun i => (s.line i).isSectionMarker

def sameFunctions (a b : List Text) : Bool :=
  a.length == b.length && a.all fun f => b.elem f

/-- Cuts where the business functions differ from those seen last. -/
def businessPoints (s : Script) (lo hi : Nat) : List Nat :=
  follow [] (positions lo hi)
where
  follow (current : List Text) : List Nat → List Nat
    | [] => []
    | i :: rest =>
      let functions := (s.line i).business
      if functions.isEmpty then follow current rest
      else if !current.isEmpty && !sameFunctions current functions then i :: follow functions rest
      else follow functions rest

/-- Cuts after lines that close nesting back to depth one or less. -/
def nestingPoints (s : Script) (lo hi : Nat) : List Nat :=
  follow 0 (positions lo hi)
where
  follow (depth : Int) : List Nat → List Nat
    | [] => []
    | i :: rest =>
      let delta := (s.line i).nesting
      if delta < 0 && depth + delta ≤ 1 && i + 1 < hi then (i + 1) :: follow (depth + delta) rest
      else follow (depth + delta) rest

/-- The first line after the header of a control block that starts at `lo`, or `lo` itself when there
is none. -/
def headerStop (s : Script) (lo hi : Nat) : Nat :=
  match s.nextCode lo hi with
  | none => lo
  | some first =>
    if (s.line first).startsControl then
      match (positions first (min hi (first + conditionWindow + 1))).find? fun i =>
          (s.line i).nesting > 0 with
      | some i => i + 1
      | none => lo
    else lo

/-- Open nesting after a line; closers without an opener are ignored. -/
def nest (depth : Nat) (delta : Int) : Nat :=
  (depth + delta).toNat

/-- Whether line `i` can begin a unit: the first of a run of comments, or a code line that neither
follows a comment nor continues what stands before it. -/
def startsUnit (s : Script) (i : Nat) : Bool :=
  let l := s.line i
  if l.isEmpty then false
  else if 0 < i && (s.line (i - 1)).isComment then false
  else if l.isComment then true
  else if leadsWith l.code ["ELSE", "WHEN", "THEN", "END", "CATCH", "AND", "OR", "NOT", ")", ","] then
    false
  else if beginsCatch l.code || beginsBlock l.code then false
  else
    match s.prevCode 0 i with
    | none => true
    | some prev => !isPendingHeader (s.line prev).code

/-- Cuts lines from `start` up to `hi` into units; the lines still to look at are given. -/
def unitsFrom (s : Script) (hi base : Nat) (flat : Bool) : Nat → Nat → List Nat → List Block
  | start, _, [] => [s.block start hi .sequence]
  | start, depth, i :: rest =>
    let after := nest depth (s.line i).nesting
    if start < i && (flat || depth == base) && s.startsUnit i then
      s.block start i .sequence :: unitsFrom s hi base flat i after rest
    else unitsFrom s hi base flat start after rest

/-- Lines `[lo, hi)` as complete units. Unless `flat`, only lines as deep as the end of the block's
header begin a unit. -/
def units (s : Script) (lo hi : Nat) (flat : Bool) : List Block :=
  let stop := s.headerStop lo hi
  let base := (positions lo stop).foldl (fun depth i => nest depth (s.line i).nesting) 0
  s.unitsFrom hi base flat lo base (positions stop hi)

/-- Groups units as long as the weight and line targets allow and returns where groups begin. -/
def groupUnits (weightTarget lineTarget : Int) (units : List Block) : List Nat :=
  follow 0 0 units
where
  follow (weight lines : Nat) : List Block → List Nat
    | [] => []
    | u :: rest =>
      -- A group holds one unit at least, however large.
      if 0 < lines && (((weight + u.weight : Nat) : Int) > weightTarget ||
          ((lines + u.lines : Nat) : Int) > lineTarget) then
        u.start :: follow u.weight u.lines rest
      else follow (weight + u.weight) (lines + u.lines) rest

def groupPoints (s : Script) (z : Sizing) (lo hi : Nat) : List Nat :=
  groupUnits (max 1 (z.complexity / 2)) z.target (s.units lo hi false)

def forcedPoints (s : Script) (z : Sizing) (lo hi : Nat) : List Nat :=
  groupUnits (max 1 (z.complexity / 4)) (max z.min (z.target / 2)) (s.units lo hi true)

/-- Cuts before `IF` lines and after `END` lines that no `ELSE` follows. -/
def branchPoints (s : Script) (lo hi : Nat) : List Nat :=
  (positions (lo + 1) hi).flatMap fun i =>
    let code := (s.line i).code
    if leadsWith code ["IF"] then [i]
    else if leadsWith code ["END"] && i + 1 < hi then
      match s.nextCode (i + 1) hi with
      | some next => if leadsWith (s.line next).code ["ELSE"] then [] else [i + 1]
      | none => [i + 1]
    else []

/-- Cuts at the first statement, control or comment start after every target number of lines. -/
def statementPoints (s : Script) (z : Sizing) (lo hi : Nat) : List Nat :=
  follow lo (positions (lo + 1) hi)
where
  follow (last : Nat) : List Nat → List Nat
    | [] => []
    | i :: rest =>
      let l := s.line i
      if z.target ≤ (i : Int) - last && (l.isComment || l.startsStatement || l.startsControl) then
        i :: follow i rest
      else follow last rest

def proposed (s : Script) (z : Sizing) (source : CutSource) (lo hi : Nat) : List Nat :=
  match source with
  | .sections => s.sectionPoints lo hi
  | .business => s.businessPoints lo hi
  | .nesting => s.nestingPoints lo hi
  | .groups => s.groupPoints z lo hi
  | .branches => s.branchPoints lo hi
  | .statements => s.statementPoints z lo hi
  | .forced => s.forcedPoints z lo hi

end Script

end ScriptAtlas
