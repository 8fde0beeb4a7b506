import ScriptAtlas.Block.Word

/-!
The extent of SQL statements. A statement that begins on a line takes in the following code lines as
long as its own state or their leading words say that they continue it, within a window of lines.
-/

namespace ScriptAtlas

open Pattern Word

inductive StatementKind where
  | insert
  | update
  | commonTable
  | declare
  | merge
  | batchEnd
  | other
  deriving DecidableEq, Repr

def StatementKind.ofText (text : Text) : StatementKind :=
  let w := leading text
  if w == "INSERT" then .insert
  else if w == "UPDATE" then .update
  else if w == "WITH" then .commonTable
  else if w == "DECLARE" then .declare
  else if w == "MERGE" then .merge
  else if w == "GO" then .batchEnd
  else .other

structure StatementScan where
  kind : StatementKind
  isCursor : Bool
  isRoutine : Bool
  parens : Int := 0
  /-- Open `CASE` expressions. -/
  cases : Int := 0
  sawValues : Bool := false
  sawSelect : Bool := false
  sawSet : Bool := false
  sawBody : Bool := false
  lastCode : Text := []
  terminated : Bool := false
  deriving DecidableEq, Repr

namespace StatementScan

def window : Nat := 40

/-- `CASE` minus `END`. -/
def caseBalance (code : Text) : Int :=
  ((Vocabulary.caseWord.all code).length : Int) - (Vocabulary.endWord.all code).length

def ofText (text : Text) : StatementScan where
  kind := .ofText text
  isCursor := leading text == "DECLARE" && (whole (lit "CURSOR")).occurs text
  isRoutine := isRoutineHeader text

def endsInAs (code : Text) : Bool :=
  ((start ||| one isGapByte) ++ (lit "AS" ++ stop)).occurs code

def beginsBody (code : Text) : Bool :=
  (oneOf ["SELECT", "INSERT", "UPDATE", "DELETE", "MERGE"] ++ edge).leads code

def consume (s : StatementScan) (text : Text) (parens : Int) : StatementScan :=
  let depth := s.parens + parens
  let hasSelect := (whole (lit "SELECT")).occurs text
  { s with
    parens := depth
    cases := max 0 (s.cases + caseBalance text)
    sawValues := s.sawValues || (s.kind == .insert && (whole (lit "VALUES")).occurs text)
    sawSelect := s.sawSelect ||
      ((s.kind == .insert || (s.kind == .declare && s.isCursor)) && hasSelect)
    sawSet := s.sawSet || (s.kind == .update && (whole (lit "SET")).occurs text)
    sawBody := s.sawBody || (s.kind == .commonTable && depth ≤ 0 && beginsBody text)
    lastCode := text
    terminated := s.terminated || (depth ≤ 0 && text.endsWith ";") ||
      (s.isRoutine && depth ≤ 0 && endsInAs text) || s.kind == .batchEnd ||
      -- A parenthesis that the statement did not open closes what it stands in.
      depth < 0 }

def continues (s : StatementScan) (code : Text) : Bool :=
  if s.parens > 0 || s.cases > 0 then true
  else if isDangling s.lastCode then true
  else if leadsWith code ["UNION", "EXCEPT", "INTERSECT", "VALUES"] then true
  -- A query, change or assignment goes on with the statement only where that still waits for one.
  else if leadsWith code ["SELECT"] then
    if s.kind == .insert then !s.sawValues && !s.sawSelect
    else if s.kind == .commonTable then !s.sawBody
    else if s.isCursor then !s.sawSelect
    else false
  else if leadsWith code ["INSERT", "UPDATE", "DELETE"] then
    s.kind == .merge || (s.kind == .commonTable && !s.sawBody)
  else if leadsWith code ["MERGE"] then s.kind == .commonTable && !s.sawBody
  else if leadsWith code ["SET"] then (s.kind == .update && !s.sawSet) || s.kind == .merge
  else if leadsWith code ["WHEN", "THEN"] then s.kind == .merge
  -- `WITH (` is a table hint; any other `WITH` begins a statement.
  else if leadsWith code ["WITH"] then (afterLeading code).startsWith "("
  else if leadsWith code ["BEGIN"] then false
  else if s.isRoutine then true
  else !leadsWith code statementStarters && !leadsWith code ["IF", "ELSE", "WHILE", "END"]

end StatementScan

/-- The last line of a statement, and whether the scan saw its end before the window ran out. -/
structure StatementExtent where
  last : Nat
  complete : Bool
  deriving DecidableEq, Repr

namespace Script

/-- Follows a statement over at most `count` lines from `i` on, of which `room` lie in the window. -/
def followStatement (s : Script) (scan : StatementScan) (last : Nat) :
    Nat → Nat → Nat → StatementExtent
  -- The lines end with the statement, or the window ends before it.
  | 0, _, _ => ⟨last, true⟩
  | _ + 1, 0, _ => ⟨last, false⟩
  | count + 1, room + 1, i =>
    let l := s.line i
    if l.isQuiet then followStatement s scan last count room (i + 1)
    else if !scan.continues l.code then ⟨last, true⟩
    else
      let scan := scan.consume l.code l.parens
      if scan.terminated then ⟨i, true⟩
      else followStatement s scan i count room (i + 1)

/-- The extent of the statement with the given text that begins on line `i`, in lines before `limit`.
-/
def statementExtent (s : Script) (i : Nat) (text : Text) (limit : Nat) : StatementExtent :=
  let scan := (StatementScan.ofText text).consume text (Line.parensOf text)
  if scan.terminated then ⟨i, true⟩
  else s.followStatement scan i (min limit s.size - (i + 1)) (StatementScan.window - 1) (i + 1)

end Script

namespace Line

def conditionStatement (text : Text) : Option Text :=
  match splitCondition (afterLeading text) 0 with
  | .body rest _ => if leadsWith rest statementStarters then some rest else none
  | .ongoing _ => none

/-- The statement governed by a condition or by up to `elses` times `ELSE` in front of it. -/
def governedStatement : Nat → Text → Option Text
  | 0, _ => none
  | elses + 1, text =>
    if leadsWith text ["IF", "WHILE"] then conditionStatement text
    else if leadsWith text ["ELSE"] then
      if leadsWith (afterLeading text) statementStarters then some (afterLeading text)
      else governedStatement elses (afterLeading text)
    else none

/-- The statement that begins on a line, also as the single body of a condition or `ELSE` on the same
line. -/
def statementText (l : Line) : Option Text :=
  if l.isQuiet then none
  else if l.startsStatement then some l.code
  else governedStatement 2 l.code

end Line

end ScriptAtlas
